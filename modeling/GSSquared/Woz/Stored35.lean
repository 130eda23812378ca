/-
What a full export of a 3.5-inch image stores.
-/
import GSSquared.Woz.Export35

set_option linter.all false

namespace GSSquared.Woz.Nib35

open Bits Host

structure SideFull (trk : Track) (t : Fin 80) : Prop where
  inRange : ∀ field ∈ taken trk t, field.1.InRange
  full : (numbers trk t).length = sectorsThisTrack t

theorem taken_congr (trk : Track) {t t' : Fin 80} (h : sectorsThisTrack t = sectorsThisTrack t') :
    taken trk t = taken trk t' := by
  unfold taken
  rw [h]

theorem SideFull.congr {trk : Track} {t t' : Fin 80} (hfull : SideFull trk t)
    (h : sectorsThisTrack t = sectorsThisTrack t') : SideFull trk t' := by
  obtain ⟨hrange, hlen⟩ := hfull
  unfold numbers at hlen
  rw [taken_congr trk h] at hrange hlen
  exact ⟨hrange, hlen.trans h⟩

def Counted (woz : Image) (s : Fin 80 × Fin 2) : Prop :=
  ∃ trk, woz.getTrackPtr (s.1.val * 2 + s.2.val) = some trk ∧ SideFull trk s.1

def OwnField (woz : Image) (i : Fin 1600) (sector : Sector) : Prop :=
  ∃ (t : Fin 80) (side : Fin 2) (trk : Track) (addr : Address), onSide t side i ∧
    woz.getTrackPtr (t.val * 2 + side.val) = some trk ∧ (addr, sector) ∈ taken trk t ∧
    addr.block = some i.val

end GSSquared.Woz.Nib35
