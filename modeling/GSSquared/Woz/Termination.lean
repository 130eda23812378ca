/-
When the exporters' scan of a track ends.
-/
import GSSquared.Woz.Decode35
import GSSquared.Woz.Nibblizer525

set_option linter.all false

namespace GSSquared.Woz

open Bits

def Ends {ρ : Type} (r : Except Fault ρ) : Prop := r ≠ .error .endless

def Bright (trk : Track) : Prop := ∃ i, i < trk.bitCount ∧ (trk.bits.getD (i / 8) 0).getLsbD (7 - i % 8) = true

section

variable {trk : Track} (hfits : trk.bitCount ≤ 8 * trk.bits.length) (hpos : 0 < trk.bitCount)

include hfits hpos

theorem readBit_cell (c : BitCursor) : readBit trk c =
    .ok ((trk.bits.getD (c.pos % trk.bitCount / 8) 0).getLsbD (7 - c.pos % trk.bitCount % 8),
      { pos := (c.pos + 1) % 2 ^ 32, consumed := c.consumed + 1 }) := by
  have hlt := Nat.mod_lt c.pos hpos
  have hidx : c.pos % trk.bitCount / 8 < trk.bits.length := by omega
  simp only [readBit, List.getElem?_eq_getElem hidx, List.getD_eq_getElem?_getD, Option.getD_some]

theorem bright_iff (hcount : trk.bitCount < 2 ^ 32) : Bright trk ↔ ¬ Dark trk := by
  constructor
  · rintro ⟨i, hi, hone⟩ hdark
    have hread := readBit_cell hfits hpos { pos := i, consumed := 0 }
    rw [Nat.mod_eq_of_lt hi, hone] at hread
    cases hdark _ _ true (Nat.lt_trans hi hcount) hread
  · intro hlit
    by_contra hnone
    apply hlit
    intro c c' bit hc hread
    rw [readBit_cell hfits hpos c] at hread
    cases bit with
    | false => rfl
    | true =>
      obtain ⟨hone, -⟩ := Prod.mk.inj (Except.ok.inj hread)
      exact absurd ⟨c.pos % trk.bitCount, Nat.mod_lt _ hpos, hone⟩ hnone

theorem Dark.readNibbleLoop (hdark : Dark trk) (fuel : Nat) {c : BitCursor} (hc : c.pos < 2 ^ 32) :
    Woz.readNibbleLoop trk fuel 0 c = .error .endless := by
  induction fuel generalizing c with
  | zero => rfl
  | succ fuel ih =>
    obtain ⟨bit, c', hread⟩ := readBit_total hfits hpos c
    obtain rfl := hdark c c' bit hc hread
    have hc' : c'.pos < 2 ^ 32 := by
      rw [readBit_cell hfits hpos c] at hread
      obtain ⟨-, rfl⟩ := Prod.mk.inj (Except.ok.inj hread)
      exact Nat.mod_lt _ (Nat.two_pow_pos 32)
    rw [Woz.readNibbleLoop, hread, ok_bind]
    exact ih hc'

end

section

variable {α β σ : Type} {fmt : Format α β} {done : σ → Bool} {store : α → β → σ → Except Fault σ} {st : σ}

def StoreEnds (store : α → β → σ → Except Fault σ) : Prop := ∀ addr sector st, Ends (store addr sector st)

theorem storeUntil_ends (hstore : StoreEnds store) (fields : List (α × β)) : Ends (storeUntil done store st fields) := by
  induction fields generalizing st with
  | nil => rintro ⟨⟩
  | cons field rest ih =>
    obtain ⟨addr, sector⟩ := field
    rw [storeUntil]
    by_cases hdone : done st = true
    · rw [if_pos hdone]
      rintro ⟨⟩
    · rw [if_neg hdone]
      have hends := hstore addr sector st
      cases hnext : store addr sector st with
      | error e =>
        rw [hnext] at hends
        exact hends
      | ok st' => exact ih

variable {trk : Track} (hfits : trk.bitCount ≤ 8 * trk.bits.length) (hpos : 0 < trk.bitCount)

include hfits hpos

theorem scan_ends (hstore : StoreEnds store) (hlit : ¬ Dark trk) :
    Ends (scan fmt trk done store (2 * trk.bitCount) (2 * trk.bitCount + 1) {} .start st) := by
  have hmet : (met fmt trk (2 * trk.bitCount) (2 * trk.bitCount + 1) {} .start).2 = none :=
    met_total hfits hpos fmt hlit _ _ _ (by decide) (by omega) (by
      change 2 * trk.bitCount < 0 + (2 * trk.bitCount + 1)
      omega)
  have hstores := @storeUntil_ends _ _ _ done _ st hstore
    (met fmt trk (2 * trk.bitCount) (2 * trk.bitCount + 1) {} .start).1
  rw [scan_eq, hmet]
  cases hrun : storeUntil done store st (met fmt trk (2 * trk.bitCount) (2 * trk.bitCount + 1) {} .start).1 with
  | error e =>
    rw [hrun] at hstores
    exact hstores
  | ok st' =>
    rw [ok_bind, finish]
    split
    · rintro ⟨⟩
    · rintro ⟨⟩

theorem scan_dark (hdone : done st = false) (hdark : Dark trk) :
    scan fmt trk done store (2 * trk.bitCount) (2 * trk.bitCount + 1) {} .start st = .error .endless := by
  have hstart : BitCursor.start.consumed < 2 * trk.bitCount := by
    change 0 < 2 * trk.bitCount
    omega
  rw [scan, hdone, if_neg Bool.false_ne_true, if_pos hstart, hdark.readNibble hfits hpos (by decide)]
  rfl

end

theorem Ends.bind {ρ τ : Type} {r : Except Fault ρ} {f : ρ → τ} (h : Ends r) :
    Ends (r >>= fun x => (.ok (f x) : Except Fault τ)) := by
  cases r with
  | error e => exact fun he => h (congrArg Except.error (Except.error.inj he))
  | ok x => exact fun he => nomatch he

theorem store525_ends (order : Nib525.Interleave) (t : Fin 35) : StoreEnds (Nib525.store order t) :=
  fun _ _ _ h => nomatch h

theorem store35_ends : StoreEnds Nib35.store := by
  intro addr sector st
  unfold Nib35.store
  split
  · exact fun h => nomatch h
  · split
    · split
      · exact fun h => nomatch h
      · exact fun h => nomatch h
    · exact fun h => nomatch h

section

variable (s : Nib35.BitStream) (hpos : 0 < s.trk.bitCount) (hcount : s.trk.bitCount < 2 ^ 32)

include hpos hcount

theorem decodeTrack525_ends (t : Fin 35) (order : Nib525.Interleave) (out : Nib525.DiskImage) :
    Ends (Nib525.decodeTrack s.trk t order out) ↔ Bright s.trk := by
  rw [bright_iff s.fits hpos hcount]
  unfold Nib525.decodeTrack
  rw [if_neg (Nat.ne_of_gt hpos)]
  constructor
  · intro hends hdark
    apply hends
    have hopen : Nib525.full (.start out) = false := rfl
    dsimp only
    rw [scan_dark s.fits hpos hopen hdark]
    rfl
  · intro hlit
    exact (scan_ends s.fits hpos (store525_ends order t) hlit).bind

theorem decodeTrack35_ends (t : Fin 80) (side : Fin 2) (out : Nib35.DiskImage) :
    Ends (Nib35.decodeTrack s.trk t side out) ↔ Bright s.trk := by
  have hopen : Nib35.full (Nib35.sectorsThisTrack t) (.start out) = false := by
    have hpos : decide ((Nib35.Decoded.start out).foundCount < Nib35.sectorsThisTrack t) = true :=
      decide_eq_true (Nib35.sectorsThisTrack_pos t)
    unfold Nib35.full
    rw [hpos]
    rfl
  rw [bright_iff s.fits hpos hcount]
  unfold Nib35.decodeTrack
  rw [if_neg (Nat.ne_of_gt hpos)]
  constructor
  · intro hends hdark
    apply hends
    dsimp only
    rw [scan_dark s.fits hpos hopen hdark]
    rfl
  · intro hlit
    exact (scan_ends s.fits hpos store35_ends hlit).bind

/-- Both decoders end just when the track has a one. -/
theorem decodeTrack_ends_iff : (∀ t order out, Ends (Nib525.decodeTrack s.trk t order out) ↔ Bright s.trk) ∧
    ∀ t side out, Ends (Nib35.decodeTrack s.trk t side out) ↔ Bright s.trk :=
  ⟨decodeTrack525_ends s hpos hcount, decodeTrack35_ends s hpos hcount⟩

end

def oneCell : Nib35.BitStream := { trk := { bits := [0x80], bitCount := 1 }, fits := by decide }

theorem oneCell_ends : (∀ t order out, Ends (Nib525.decodeTrack oneCell.trk t order out)) ∧
    ∀ t side out, Ends (Nib35.decodeTrack oneCell.trk t side out) := by
  have hbright : Bright oneCell.trk := ⟨0, by decide, by decide⟩
  obtain ⟨h525, h35⟩ := decodeTrack_ends_iff oneCell (by decide) (by decide)
  exact ⟨fun t order out => (h525 t order out).mpr hbright, fun t side out => (h35 t side out).mpr hbright⟩

def zeros : Nib35.BitStream := { trk := { bits := List.replicate 16 0, bitCount := 128 }, fits := by decide }

theorem zeros_dark : Dark zeros.trk := by
  have hnone : ∀ i, i < 128 → (zeros.trk.bits.getD (i / 8) 0).getLsbD (7 - i % 8) = false := by decide
  by_contra hlit
  obtain ⟨i, hi, hone⟩ := (bright_iff zeros.fits (by decide) (by decide)).mpr hlit
  rw [hnone i hi] at hone
  cases hone

/-- It is never decoded: its first nibble does not come, however many cells go by. -/
theorem zeros_endless : (∀ fuel, readNibbleLoop zeros.trk fuel 0 .start = .error .endless) ∧
    (∀ t order out, ¬ Ends (Nib525.decodeTrack zeros.trk t order out)) ∧
    ∀ t side out, ¬ Ends (Nib35.decodeTrack zeros.trk t side out) := by
  have hno : ¬ Bright zeros.trk := fun h => (bright_iff zeros.fits (by decide) (by decide)).mp h zeros_dark
  refine ⟨fun fuel => zeros_dark.readNibbleLoop zeros.fits (by decide) fuel (by decide), ?_, ?_⟩
  · intro t order out hends
    exact hno ((decodeTrack525_ends zeros (by decide) (by decide) t order out).mp hends)
  · intro t side out hends
    exact hno ((decodeTrack35_ends zeros (by decide) (by decide) t side out).mp hends)

end GSSquared.Woz
