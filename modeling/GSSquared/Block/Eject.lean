/-
EJECT, a unit at a time. Units are numbered by where a volume found room, and drives by where it was
mounted.
-/
import GSSquared.Block.Mounts

set_option linter.all false

namespace GSSquared.Block

/-- A unit as `unmount` leaves it. -/
def Volume.cleared (v : Volume) : Volume := { v with file := none, media := none, key := {}, switched := true }

namespace PDBlock3

section

variable {s : PDBlock3} {key : Key} {u w : Nat}

theorem unmountUnit_units (key : Key) (u w : Nat) (s : PDBlock3) :
    (s.unmountUnit key u).units w =
      if w = u ∧ (s.units w).key = key then (s.units w).cleared else s.units w := by
  unfold unmountUnit
  by_cases hkey : (s.units u).key = key
  · rw [if_pos hkey]
    by_cases hw : w = u
    · rw [if_pos ⟨hw, hw ▸ hkey⟩, hw, setUnit_self]
      rfl
    · rw [if_neg (fun h => hw h.1), setUnit_ne hw]
      split <;> rfl
  · rw [if_neg hkey, if_neg]
    rintro ⟨rfl, h⟩
    exact hkey h

theorem foldl_unmountUnit (us : List Nat) (hnodup : us.Nodup) (s : PDBlock3) :
    (us.foldl (fun s u => s.unmountUnit key u) s).units w =
      if w ∈ us ∧ (s.units w).key = key then (s.units w).cleared else s.units w := by
  induction us generalizing s with
  | nil => rw [if_neg (fun h => absurd h.1 List.not_mem_nil)]; rfl
  | cons u us ih =>
    obtain ⟨hu, hnodup⟩ := List.nodup_cons.mp hnodup
    rw [List.foldl_cons, ih hnodup, unmountUnit_units]
    by_cases hw : w = u
    · have hnot : w ∉ us := hw ▸ hu
      rw [if_neg (fun h => hnot h.1)]
      exact if_congr ⟨fun h => ⟨List.mem_cons.mpr (.inl hw), h.2⟩, fun h => ⟨hw, h.2⟩⟩ rfl rfl
    · rw [if_neg (fun h : w = u ∧ _ => hw h.1)]
      exact if_congr ⟨fun h => ⟨List.mem_cons_of_mem u h.1, h.2⟩,
        fun h => ⟨(List.mem_cons.mp h.1).resolve_left hw, h.2⟩⟩ rfl rfl

variable (key) in
theorem unmount_units (hdrive : key.drive < maxDevices) (s : PDBlock3) (hw : w < maxUnits) :
    (s.unmount key).units w = if (s.units w).key = key then (s.units w).cleared else s.units w := by
  unfold unmount
  rw [if_neg (Nat.not_le.mpr hdrive), foldl_unmountUnit _ List.nodup_range]
  exact if_congr ⟨And.right, fun h => ⟨List.mem_range.mpr hw, h⟩⟩ rfl rfl

theorem unmount_disk (key : Key) (s : PDBlock3) : (s.unmount key).disk = s.disk := by
  unfold unmount
  split
  · rfl
  refine List.foldlRecOn (motive := fun t : PDBlock3 => t.disk = s.disk) _ _ rfl (fun t ht u _ => ?_)
  unfold unmountUnit
  dsimp only
  split
  · rw [← ht]
    split <;> rfl
  · exact ht

theorem setUnit_same (u : Nat) (s : PDBlock3) : s.setUnit u (s.units u) = s := by
  unfold setUnit
  have hsame : (fun i => if i = u then s.units u else s.units i) = s.units := by
    funext i
    split
    · next h => rw [h]
    · rfl
  rw [hsame]

theorem unmount_of_cleared (hclear : ∀ w, w < maxUnits → (s.units w).key = key → (s.units w).cleared = s.units w) :
    s.unmount key = s := by
  unfold unmount
  split
  · rfl
  refine List.foldlRecOn (motive := fun t => t = s) _ _ rfl (fun t ht u hu => ?_)
  rw [ht]
  unfold unmountUnit
  dsimp only
  split
  · next hkey =>
    have hsame := hclear u (List.mem_range.mp hu) hkey
    have hfile : (s.units u).file = none := by
      rw [← hsame]
      rfl
    rw [hfile]
    exact (congrArg (fun v => s.setUnit u v) hsame).trans (setUnit_same u s)
  · rfl

end

/-- `check_online`, of a unit that is one. -/
def Online (s : PDBlock3) (u : Nat) : Prop := u < maxUnits ∧ (s.units u).file ≠ none ∧ (s.units u).media ≠ none

def driveKey (s : PDBlock3) (u : Nat) : Key := { slot := s.slot.toNat, drive := u }

/-- What is asked of an EJECT that names `unit`, counted from one: an online unit goes offline, with
none but units of its own key, and otherwise nothing but the error byte may change. -/
structure Ejects (unit : Nat) (s r : PDBlock3) : Prop where
  takes : ∀ u, unit = u + 1 → s.Online u →
    ¬r.Online u ∧ ∀ w, w < maxUnits → (s.units w).key ≠ (s.units u).key → r.units w = s.units w
  leaves : (∀ u, unit = u + 1 → ¬s.Online u) → ∃ e, r = s.fail e

structure NumberedAlike (unit : Nat) (s : PDBlock3) : Prop where
  own : ∀ u, unit = u + 1 → s.Online u → u < maxDevices ∧ (s.units u).key = s.driveKey u
  none : ∀ u, unit = u + 1 → ¬s.Online u → u < maxDevices →
    ∀ w, w < maxUnits → (s.units w).key = s.driveKey u → (s.units w).cleared = s.units w

theorem spExecuteImpl_eject {f : Forms} {clist : Nat} {s : PDBlock3} (hcode : (f.control s clist).2 = 4) :
    s.spExecuteImpl f 4 clist =
      if (f.control s clist).1 = 0 ∨ maxUnits ≤ (f.control s clist).1.toNat then s.fail errorNoDevice
      else s.unmount (s.driveKey ((f.control s clist).1.toNat - 1)) := by
  unfold spExecuteImpl
  rw [if_neg (by decide), if_neg (by decide), if_neg (by decide), if_neg (by decide), if_pos rfl]
  dsimp only
  by_cases hzero : (f.control s clist).1 = 0
  · rw [if_pos hzero, if_pos (.inl hzero)]
  rw [if_neg hzero]
  by_cases hbig : maxUnits ≤ (f.control s clist).1.toNat
  · rw [if_pos hbig, if_pos (.inr hbig)]
  · rw [if_neg hbig, hcode, if_pos rfl, if_neg (fun h => h.elim hzero hbig)]
    rfl

theorem ejects_iff (f : Forms) (clist : Nat) (s : PDBlock3) (hcode : (f.control s clist).2 = 4) :
    Ejects (f.control s clist).1.toNat s (s.spExecuteImpl f 4 clist) ↔
      NumberedAlike (f.control s clist).1.toNat s := by
  rw [spExecuteImpl_eject hcode]
  generalize (f.control s clist).1 = unit
  by_cases hnone : unit = 0 ∨ maxUnits ≤ unit.toNat
  · rw [if_pos hnone]
    constructor
    · intro h
      refine ⟨fun u hu hon => ?_, fun u hu _ hlt => ?_⟩
      · exact absurd hon (h.takes u hu hon).1
      · rcases hnone with rfl | hbig
        · cases hu
        · unfold maxUnits at hbig
          unfold maxDevices at hlt
          omega
    · intro h
      refine ⟨fun u hu hon => ?_, fun _ => ⟨_, rfl⟩⟩
      have hlt := (h.own u hu hon).1
      rcases hnone with rfl | hbig
      · cases hu
      · unfold maxUnits at hbig
        unfold maxDevices at hlt
        omega
  rw [if_neg hnone]
  have hzero : unit.toNat ≠ 0 := fun h => hnone (.inl (BitVec.eq_of_toNat_eq h))
  have hlt : unit.toNat < maxUnits := Nat.lt_of_not_le (fun h => hnone (.inr h))
  obtain ⟨u, hu⟩ := Nat.exists_eq_succ_of_ne_zero hzero
  rw [hu, Nat.succ_sub_one]
  rw [hu] at hlt
  have hself : ∀ v, u.succ = v + 1 → v = u := fun v hv => (Nat.succ.inj hv).symm
  by_cases hdrive : u < maxDevices
  · constructor
    · intro h
      refine ⟨fun v hv hon => ?_, fun v hv hoff _ w hw hkey => ?_⟩
      · cases hself v hv
        refine ⟨hdrive, ?_⟩
        by_contra hother
        refine (h.takes u rfl hon).1 ?_
        unfold Online
        rw [unmount_units (s.driveKey u) hdrive s hon.1, if_neg hother]
        exact hon
      · cases hself v hv
        obtain ⟨e, he⟩ := h.leaves (fun v hv hon => hoff (hself v hv ▸ hon))
        have hunits := unmount_units (s.driveKey u) hdrive s hw
        rw [he, if_pos hkey] at hunits
        exact hunits.symm
    · intro h
      refine ⟨fun v hv hon => ?_, fun hoff => ⟨s.error, ?_⟩⟩
      · cases hself v hv
        have hkey := (h.own u rfl hon).2
        refine ⟨?_, fun w hw hne => ?_⟩
        · rintro ⟨_, hfile, _⟩
          rw [unmount_units (s.driveKey u) hdrive s hon.1, if_pos hkey] at hfile
          exact hfile rfl
        · rw [unmount_units (s.driveKey u) hdrive s hw, if_neg (fun hw' => hne (hw'.trans hkey.symm))]
      · exact unmount_of_cleared (h.none u rfl (hoff u rfl) hdrive)
  · -- past the last drive the call does nothing
    have hsame : s.unmount (s.driveKey u) = s := by
      exact if_pos (Nat.le_of_not_lt hdrive)
    rw [hsame]
    constructor
    · intro h
      refine ⟨fun v hv hon => absurd hon (h.takes v hv hon).1, fun v hv _ hlt' => ?_⟩
      exact absurd (hself v hv ▸ hlt') hdrive
    · intro h
      refine ⟨fun v hv hon => ?_, fun _ => ⟨s.error, rfl⟩⟩
      exact absurd (hself v hv ▸ (h.own v hv hon).1) hdrive

/-- Whatever has been mounted and unmounted, EJECT ejects the unit it names where units and drives
are numbered alike, and nowhere else. -/
theorem eject_unit (h : Host) (ops : List Op) (s : PDBlock3) (f : Forms) (clist : Nat)
    (hcode : (f.control (run h ops s) clist).2 = 4) :
    Ejects (f.control (run h ops s) clist).1.toNat (run h ops s) ((run h ops s).spExecuteImpl f 4 clist) ↔
      NumberedAlike (f.control (run h ops s) clist).1.toNat (run h ops s) :=
  ejects_iff f clist (run h ops s) hcode

def mountedAs (drive : Nat) : PDBlock3 :=
  run oneFile
    [.mount (fun _ => false) { slot := 7, drive := drive } false (.file ['a', '.', 'h', 'd', 'v']), .poke 0x1001 1,
      .poke 0x1004 4]
    (unmounted (List.replicate 1024 7))

theorem online_of_some {s : PDBlock3} {u : Nat} (hu : u < maxUnits) (hfile : (s.units u).file.isSome = true)
    (hmedia : (s.units u).media.isSome = true) : s.Online u :=
  ⟨hu, Option.isSome_iff_ne_none.mp hfile, Option.isSome_iff_ne_none.mp hmedia⟩

theorem eject_unit_first :
    NumberedAlike 1 (mountedAs 0) ∧ Ejects 1 (mountedAs 0) ((mountedAs 0).spExecuteImpl standard 4 0x1000) := by
  have hcode : (standard.control (mountedAs 0) 0x1000).2 = 4 := by decide +kernel
  have hunit : (standard.control (mountedAs 0) 0x1000).1 = 1 := by decide +kernel
  have hon : (mountedAs 0).Online 0 := online_of_some (by decide) (by decide +kernel) (by decide +kernel)
  have halike : NumberedAlike 1 (mountedAs 0) := by
    refine ⟨fun u hu _ => ?_, fun u hu hoff => ?_⟩
    · cases hu
      exact ⟨by decide, by decide +kernel⟩
    · cases hu
      exact absurd hon hoff
  have heject := (eject_unit oneFile _ _ standard 0x1000 hcode).mpr (by rw [← mountedAs, hunit]; exact halike)
  rw [← mountedAs, hunit] at heject
  exact ⟨halike, heject⟩

/-- The first unit, mounted as drive 1, is not ejected. -/
theorem eject_misses : ¬Ejects 1 (mountedAs 1) ((mountedAs 1).spExecuteImpl standard 4 0x1000) := by
  intro h
  refine (h.takes 0 rfl (online_of_some (by decide) (by decide +kernel) (by decide +kernel))).1 ?_
  exact online_of_some (by decide) (by decide +kernel) (by decide +kernel)

end PDBlock3

end GSSquared.Block
