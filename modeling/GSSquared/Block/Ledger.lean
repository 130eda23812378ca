/-
The files a block device has open, and the units that use them.
-/
import GSSquared.Block.PDBlock3

set_option linter.all false

namespace GSSquared.Block

open Bits Wire

theorem countP_range_update {n u : Nat} (hu : u < n) {p q : Nat → Bool} (hpq : ∀ w, w ≠ u → p w = q w) :
    (List.range n).countP p + (if q u then 1 else 0) = (List.range n).countP q + (if p u then 1 else 0) := by
  induction n with
  | zero => exact absurd hu (Nat.not_lt_zero u)
  | succ n ih =>
    rw [List.range_succ, List.countP_append, List.countP_append, List.countP_singleton, List.countP_singleton]
    rcases Nat.lt_or_ge u n with hlt | hge
    · have hlast : p n = q n := hpq n (Nat.ne_of_gt hlt)
      rw [hlast]
      have := ih hlt
      omega
    · have hun : n = u := by omega
      subst hun
      have hbelow : (List.range n).countP p = (List.range n).countP q := by
        apply List.countP_congr
        intro w hw
        rw [hpq w (Nat.ne_of_lt (List.mem_range.mp hw))]
      rw [hbelow]
      omega

namespace PDBlock3

def users (units : Nat → Volume) (fp : Handle) : Nat :=
  (List.range maxUnits).countP (fun u => decide ((units u).file = some fp))

structure Ledger (h : Host) (s : PDBlock3) : Prop where
  paired : ∀ u, u < maxUnits → ((s.units u).file = none ↔ (s.units u).media = none)
  blocks : ∀ u, u < maxUnits → ∀ m, (s.units u).media = some m → m.blockSize = 512 ∧ m.filename ≠ []
  known : ∀ u, u < maxUnits → ∀ fp m, (s.units u).file = some fp → (s.units u).media = some m →
    ∃ e ∈ s.openFiles, e.name = m.filename ∧ e.fp = fp
  inode : ∀ e ∈ s.openFiles, h.inode e.name = some e.fp.inode
  fresh : ∀ e ∈ s.openFiles, e.fp.id < s.nextId
  handles : (s.openFiles.map (·.fp)).Nodup
  refs : ∀ e ∈ s.openFiles, e.refs = users s.units e.fp
  live : ∀ e ∈ s.openFiles, 0 < e.refs

section

variable {h : Host} {s t : PDBlock3} {u : Nat} {v : Volume} {fp : Handle}

@[simp] theorem setUnit_self (u : Nat) (v : Volume) (s : PDBlock3) : (s.setUnit u v).units u = v := if_pos rfl

theorem setUnit_ne {w : Nat} (hne : w ≠ u) (v : Volume) (s : PDBlock3) : (s.setUnit u v).units w = s.units w :=
  if_neg hne

theorem users_setUnit (hu : u < maxUnits) (v : Volume) (fp' : Handle) :
    users (s.setUnit u v).units fp' + (if (s.units u).file = some fp' then 1 else 0) =
      users s.units fp' + if v.file = some fp' then 1 else 0 := by
  have hcount := countP_range_update hu (p := fun w => decide (((s.setUnit u v).units w).file = some fp'))
    (q := fun w => decide ((s.units w).file = some fp')) (fun w hw => by rw [setUnit_ne hw])
  simp only [setUnit_self, decide_eq_true_eq] at hcount
  exact hcount

theorem users_place (hu : u < maxUnits) (hfree : (s.units u).file = none) (hv : v.file = some fp) (fp' : Handle) :
    users (s.setUnit u v).units fp' = users s.units fp' + if fp = fp' then 1 else 0 := by
  have hcount := users_setUnit (s := s) hu v fp'
  rw [hfree, hv] at hcount
  simp only [reduceCtorEq, if_false, Nat.add_zero, Option.some.injEq] at hcount
  exact hcount

theorem users_clear (hu : u < maxUnits) (hfile : (s.units u).file = some fp) (hv : v.file = none) (fp' : Handle) :
    users s.units fp' = users (s.setUnit u v).units fp' + if fp = fp' then 1 else 0 := by
  have hcount := users_setUnit (s := s) hu v fp'
  rw [hfile, hv] at hcount
  simp only [reduceCtorEq, if_false, Nat.add_zero, Option.some.injEq] at hcount
  exact hcount.symm

theorem users_pos (hu : u < maxUnits) (hfile : (s.units u).file = some fp) : 0 < users s.units fp :=
  List.countP_pos_iff.mpr ⟨u, List.mem_range.mpr hu, decide_eq_true hfile⟩

theorem users_same {units units' : Nat → Volume} (hsame : ∀ w, w < maxUnits → (units' w).file = (units w).file)
    (fp : Handle) : users units' fp = users units fp := by
  apply List.countP_congr
  intro w hw
  rw [hsame w (List.mem_range.mp hw)]

theorem acquireIn_some {name : Name} {files files' : List OpenFile} (hacq : acquireIn name files = some (fp, files')) :
    ∃ l e r, files = l ++ e :: r ∧ e.name = name ∧ e.fp = fp ∧ files' = l ++ { e with refs := e.refs + 1 } :: r := by
  induction files generalizing files' with
  | nil => exact nomatch hacq
  | cons e es ih =>
    rw [acquireIn] at hacq
    split at hacq
    · rename_i hname
      cases Option.some.inj hacq
      exact ⟨[], e, es, rfl, hname, rfl, rfl⟩
    · obtain ⟨⟨fp', rest⟩, hrest, heq⟩ := Option.map_eq_some_iff.mp hacq
      cases heq
      obtain ⟨l, e', r, hfiles, hname, hfp, hrest'⟩ := ih hrest
      refine ⟨e :: l, e', r, ?_, hname, hfp, ?_⟩
      · rw [hfiles]
        rfl
      · show e :: rest = _
        rw [hrest']
        rfl

theorem mem_middle {α : Type} {a x : α} {l r : List α} : x ∈ l ++ a :: r ↔ x = a ∨ x ∈ l ++ r := by
  rw [List.mem_append, List.mem_cons, List.mem_append]
  constructor
  · rintro (hl | ha | hr)
    · exact .inr (.inl hl)
    · exact .inl ha
    · exact .inr (.inr hr)
  · rintro (ha | hl | hr)
    · exact .inr (.inl ha)
    · exact .inl hl
    · exact .inr (.inr hr)

theorem handles_middle {a b : OpenFile} {l r : List OpenFile} (hfp : b.fp = a.fp)
    (hnodup : ((l ++ a :: r).map (·.fp)).Nodup) :
    ((l ++ b :: r).map (·.fp)).Nodup ∧ ∀ x ∈ l ++ r, x.fp ≠ a.fp := by
  have hmap : (l ++ b :: r).map (·.fp) = (l ++ a :: r).map (·.fp) := by
    rw [List.map_append, List.map_append, List.map_cons, List.map_cons, hfp]
  refine ⟨hmap ▸ hnodup, fun x hx heq => ?_⟩
  rw [List.map_append, List.map_cons, List.nodup_middle, List.nodup_cons, ← List.map_append] at hnodup
  exact hnodup.1 (heq ▸ List.mem_map_of_mem hx)

theorem entry_kept {a b x : OpenFile} {l r : List OpenFile} (hname : b.name = a.name) (hfp : b.fp = a.fp)
    (hx : x ∈ l ++ a :: r) : ∃ y ∈ l ++ b :: r, y.name = x.name ∧ y.fp = x.fp := by
  rcases mem_middle.mp hx with rfl | hrest
  · exact ⟨b, mem_middle.mpr (.inl rfl), hname, hfp⟩
  · exact ⟨x, mem_middle.mpr (.inr hrest), rfl, rfl⟩

theorem Ledger.paired_set (hl : Ledger h s) (hunits : t.units = s.units) (hv : v.file = none ↔ v.media = none) :
    ∀ w, w < maxUnits → (((t.setUnit u v).units w).file = none ↔ ((t.setUnit u v).units w).media = none) := by
  intro w hw
  by_cases hwu : w = u
  · rw [hwu, setUnit_self]
    exact hv
  · rw [setUnit_ne hwu, hunits]
    exact hl.paired w hw

theorem Ledger.blocks_set (hl : Ledger h s) (hunits : t.units = s.units)
    (hv : ∀ m, v.media = some m → m.blockSize = 512 ∧ m.filename ≠ []) :
    ∀ w, w < maxUnits → ∀ m, ((t.setUnit u v).units w).media = some m → m.blockSize = 512 ∧ m.filename ≠ [] := by
  intro w hw m hm
  by_cases hwu : w = u
  · rw [hwu, setUnit_self] at hm
    exact hv m hm
  · rw [setUnit_ne hwu, hunits] at hm
    exact hl.blocks w hw m hm

theorem Ledger.entry (hl : Ledger h s) (hu : u < maxUnits) (hfile : (s.units u).file = some fp) :
    ∃ e ∈ s.openFiles, e.fp = fp := by
  cases hmedia : (s.units u).media with
  | none =>
    rw [(hl.paired u hu).mpr hmedia] at hfile
    exact nomatch hfile
  | some m =>
    obtain ⟨e, he, _, hfp⟩ := hl.known u hu fp m hfile hmedia
    exact ⟨e, he, hfp⟩

theorem Ledger.unused (hl : Ledger h s) (hnew : ∀ e ∈ s.openFiles, e.fp ≠ fp) : users s.units fp = 0 := by
  apply List.countP_eq_zero.mpr
  intro w hw hfile
  obtain ⟨e, he, hfp⟩ := hl.entry (List.mem_range.mp hw) (of_decide_eq_true hfile)
  exact hnew e he hfp

theorem Ledger.acquire_open {m : Descriptor} (hl : Ledger h s) (hu : u < maxUnits) (hfree : (s.units u).file = none)
    (hm : m.blockSize = 512 ∧ m.filename ≠ []) {files : List OpenFile}
    (hacq : acquireIn m.filename s.openFiles = some (fp, files)) (hfile : v.file = some fp)
    (hmedia : v.media = some m) :
    Ledger h ({ s with openFiles := files }.setUnit u v) ∧ h.inode m.filename = some fp.inode := by
  obtain ⟨l, e, r, hfiles, hname, hfp, rfl⟩ := acquireIn_some hacq
  have hhandles := hl.handles
  rw [hfiles] at hhandles
  obtain ⟨hnodup, hothers⟩ := handles_middle (a := e) (b := { e with refs := e.refs + 1 }) rfl hhandles
  have hold : ∀ x ∈ l ++ { e with refs := e.refs + 1 } :: r, ∃ y ∈ s.openFiles, y.name = x.name ∧ y.fp = x.fp := by
    intro x hx
    rw [hfiles]
    exact entry_kept (a := { e with refs := e.refs + 1 }) (b := e) rfl rfl hx
  have hmem : e ∈ s.openFiles := by
    rw [hfiles]
    exact mem_middle.mpr (.inl rfl)
  have hcount := users_place (s := s) hu hfree hfile
  have hpair : v.file = none ↔ v.media = none := by
    rw [hfile, hmedia]
    exact ⟨nofun, nofun⟩
  have hblocks : ∀ m', v.media = some m' → m'.blockSize = 512 ∧ m'.filename ≠ [] := by
    intro m' hm'
    rw [hmedia] at hm'
    cases hm'
    exact hm
  have hrefs : ∀ x ∈ l ++ { e with refs := e.refs + 1 } :: r, x.refs = users (s.setUnit u v).units x.fp := by
    intro x hx
    rw [hcount]
    rcases mem_middle.mp hx with rfl | hrest
    · rw [if_pos hfp.symm]
      show e.refs + 1 = users s.units e.fp + 1
      rw [hl.refs e hmem]
    · rw [if_neg (fun heq => hothers x hrest (heq.symm.trans hfp.symm))]
      apply hl.refs
      rw [hfiles]
      exact mem_middle.mpr (.inr hrest)
  refine ⟨⟨hl.paired_set rfl hpair, hl.blocks_set rfl hblocks, ?_, ?_, ?_, hnodup, hrefs, ?_⟩, ?_⟩
  · intro w hw fp' m' hfile' hmedia'
    by_cases hwu : w = u
    · rw [hwu, setUnit_self] at hfile' hmedia'
      rw [hfile] at hfile'
      rw [hmedia] at hmedia'
      cases hfile'
      cases hmedia'
      exact ⟨{ e with refs := e.refs + 1 }, mem_middle.mpr (.inl rfl), hname, hfp⟩
    · rw [setUnit_ne hwu] at hfile' hmedia'
      obtain ⟨x, hx, hxname, hxfp⟩ := hl.known w hw fp' m' hfile' hmedia'
      rw [hfiles] at hx
      obtain ⟨y, hy, hyname, hyfp⟩ := entry_kept (a := e) (b := { e with refs := e.refs + 1 }) rfl rfl hx
      exact ⟨y, hy, hyname.trans hxname, hyfp.trans hxfp⟩
  · intro x hx
    obtain ⟨y, hy, hyname, hyfp⟩ := hold x hx
    rw [← hyname, ← hyfp]
    exact hl.inode y hy
  · intro x hx
    obtain ⟨y, hy, _, hyfp⟩ := hold x hx
    rw [← hyfp]
    exact hl.fresh y hy
  · intro x hx
    rcases mem_middle.mp hx with rfl | hrest
    · exact Nat.succ_pos _
    · apply hl.live
      rw [hfiles]
      exact mem_middle.mpr (.inr hrest)
  · rw [← hname, ← hfp]
    exact hl.inode e hmem

theorem Ledger.acquire_new {m : Descriptor} {i : Nat} {w : Bool} (hl : Ledger h s) (hu : u < maxUnits)
    (hfree : (s.units u).file = none) (hm : m.blockSize = 512 ∧ m.filename ≠ [])
    (hinode : h.inode m.filename = some i) (hfile : v.file = some ⟨s.nextId, i, w⟩) (hmedia : v.media = some m) :
    Ledger h ({ s with openFiles := ⟨m.filename, ⟨s.nextId, i, w⟩, 1⟩ :: s.openFiles, nextId := s.nextId + 1 }.setUnit
      u v) := by
  have hnew : ∀ e ∈ s.openFiles, e.fp ≠ ⟨s.nextId, i, w⟩ := by
    intro e he heq
    have hid := hl.fresh e he
    rw [heq] at hid
    exact Nat.lt_irrefl _ hid
  have hcount := users_place (s := s) hu hfree hfile
  have hpair : v.file = none ↔ v.media = none := by
    rw [hfile, hmedia]
    exact ⟨nofun, nofun⟩
  have hblocks : ∀ m', v.media = some m' → m'.blockSize = 512 ∧ m'.filename ≠ [] := by
    intro m' hm'
    rw [hmedia] at hm'
    cases hm'
    exact hm
  have hrefs : ∀ x ∈ ⟨m.filename, ⟨s.nextId, i, w⟩, 1⟩ :: s.openFiles, x.refs = users (s.setUnit u v).units x.fp := by
    intro x hx
    rw [hcount]
    rcases List.mem_cons.mp hx with rfl | hold
    · rw [if_pos rfl, hl.unused hnew]
    · rw [if_neg (fun heq => hnew x hold heq.symm)]
      exact hl.refs x hold
  refine ⟨hl.paired_set rfl hpair, hl.blocks_set rfl hblocks, ?_, ?_, ?_, ?_, hrefs, ?_⟩
  · intro x hx fp' m' hfile' hmedia'
    by_cases hxu : x = u
    · rw [hxu, setUnit_self] at hfile' hmedia'
      rw [hfile] at hfile'
      rw [hmedia] at hmedia'
      cases hfile'
      cases hmedia'
      exact ⟨_, List.mem_cons_self, rfl, rfl⟩
    · rw [setUnit_ne hxu] at hfile' hmedia'
      obtain ⟨e, he, hename, hefp⟩ := hl.known x hx fp' m' hfile' hmedia'
      exact ⟨e, List.mem_cons_of_mem _ he, hename, hefp⟩
  · intro x hx
    rcases List.mem_cons.mp hx with rfl | hold
    · exact hinode
    · exact hl.inode x hold
  · intro x hx
    rcases List.mem_cons.mp hx with rfl | hold
    · exact Nat.lt_succ_self _
    · exact Nat.lt_succ_of_lt (hl.fresh x hold)
  · show (Handle.mk s.nextId i w :: s.openFiles.map (·.fp)).Nodup
    refine List.nodup_cons.mpr ⟨fun hmem => ?_, hl.handles⟩
    obtain ⟨e, he, heq⟩ := List.mem_map.mp hmem
    exact hnew e he heq
  · intro x hx
    rcases List.mem_cons.mp hx with rfl | hold
    · exact Nat.one_pos
    · exact hl.live x hold

theorem Ledger.acquire {m : Descriptor} (hl : Ledger h s) (hu : u < maxUnits) (hfree : (s.units u).file = none)
    (hm : m.blockSize = 512 ∧ m.filename ≠ []) (hacq : s.acquireFile h m.filename m.writeProtected = some (fp, t))
    (hfile : v.file = some fp) (hmedia : v.media = some m) :
    Ledger h (t.setUnit u v) ∧ h.inode m.filename = some fp.inode := by
  unfold acquireFile at hacq
  split at hacq
  · rename_i fp' files hin
    cases Option.some.inj hacq
    exact hl.acquire_open hu hfree hm hin hfile hmedia
  · split at hacq
    · exact nomatch hacq
    · rename_i i hopen
      cases Option.some.inj hacq
      have hinode : h.inode m.filename = some i := by
        unfold Host.openFile at hopen
        split at hopen
        · exact hopen
        · exact nomatch hopen
      exact ⟨hl.acquire_new hu hfree hm hinode hfile hmedia, hinode⟩

theorem releaseIn_eq {files : List OpenFile} {e : OpenFile} (hnodup : (files.map (·.fp)).Nodup) (he : e ∈ files) :
    ∃ l r, files = l ++ e :: r ∧
      releaseIn e.fp files = if e.refs ≤ 1 then l ++ r else l ++ { e with refs := e.refs - 1 } :: r := by
  induction files with
  | nil => exact absurd he List.not_mem_nil
  | cons x xs ih =>
    rw [List.map_cons, List.nodup_cons] at hnodup
    rw [releaseIn]
    rcases List.mem_cons.mp he with rfl | hrest
    · refine ⟨[], xs, rfl, ?_⟩
      rw [if_pos rfl]
      rfl
    · obtain ⟨l, r, hfiles, hrelease⟩ := ih hnodup.2 hrest
      refine ⟨x :: l, r, by rw [hfiles]; rfl, ?_⟩
      have hne : x.fp ≠ e.fp := fun heq => hnodup.1 (heq ▸ List.mem_map_of_mem hrest)
      rw [if_neg hne, hrelease]
      split <;> rfl

theorem Ledger.release (hl : Ledger h s) (hu : u < maxUnits) (hfile : (s.units u).file = some fp)
    (hfile' : v.file = none) (hmedia' : v.media = none) : Ledger h ((s.releaseFile fp).setUnit u v) := by
  obtain ⟨e, he, rfl⟩ := hl.entry hu hfile
  obtain ⟨l, r, hfiles, hrelease⟩ := releaseIn_eq hl.handles he
  have hhandles := hl.handles
  rw [hfiles] at hhandles
  obtain ⟨hnodup, hothers⟩ := handles_middle (a := e) (b := { e with refs := e.refs - 1 }) rfl hhandles
  have hcount := users_clear (s := s) hu hfile hfile'
  have hold : ∀ x ∈ l ++ r, x ∈ s.openFiles := by
    intro x hx
    rw [hfiles]
    exact mem_middle.mpr (.inr hx)
  have hrefs : e.refs = users (s.setUnit u v).units e.fp + 1 := by
    rw [hl.refs e he, hcount, if_pos rfl]
  have hrefs' : ∀ x ∈ l ++ r, x.refs = users (s.setUnit u v).units x.fp := by
    intro x hx
    rw [hl.refs x (hold x hx), hcount, if_neg (fun heq => hothers x hx heq.symm)]
    rfl
  -- what the books are, and that they name every handle still used
  have hbooks : ∃ files, (s.releaseFile e.fp).openFiles = files ∧ (files.map (·.fp)).Nodup ∧
      (∀ x ∈ files, x.refs = users (s.setUnit u v).units x.fp ∧ 0 < x.refs ∧ ∃ y ∈ s.openFiles, y.name = x.name ∧ y.fp = x.fp) ∧
      (∀ x ∈ s.openFiles, 0 < users (s.setUnit u v).units x.fp → ∃ y ∈ files, y.name = x.name ∧ y.fp = x.fp) := by
    refine ⟨_, hrelease, ?_⟩
    split
    · rename_i hlast
      rw [List.map_append, List.map_cons, List.nodup_middle, List.nodup_cons, ← List.map_append] at hhandles
      refine ⟨hhandles.2, fun x hx => ⟨hrefs' x hx, hl.live x (hold x hx), x, hold x hx, rfl, rfl⟩, fun x hx hused => ?_⟩
      rw [hfiles] at hx
      rcases mem_middle.mp hx with rfl | hrest
      · omega
      · exact ⟨x, hrest, rfl, rfl⟩
    · rename_i hmore
      refine ⟨hnodup, fun x hx => ?_, fun x hx _ => ?_⟩
      · rcases mem_middle.mp hx with rfl | hrest
        · refine ⟨?_, ?_, e, he, rfl, rfl⟩
          · show e.refs - 1 = _
            rw [hrefs, Nat.add_sub_cancel]
          · show 0 < e.refs - 1
            omega
        · exact ⟨hrefs' x hrest, hl.live x (hold x hrest), x, hold x hrest, rfl, rfl⟩
      · rw [hfiles] at hx
        exact entry_kept (a := e) (b := { e with refs := e.refs - 1 }) rfl rfl hx
  obtain ⟨files, hopen, hnodup', hkept, hnamed⟩ := hbooks
  have hpair : v.file = none ↔ v.media = none := ⟨fun _ => hmedia', fun _ => hfile'⟩
  have hblocks : ∀ m, v.media = some m → m.blockSize = 512 ∧ m.filename ≠ [] := by
    intro m hm
    rw [hmedia'] at hm
    exact nomatch hm
  refine ⟨hl.paired_set rfl hpair, hl.blocks_set rfl hblocks, ?_, ?_, ?_, ?_, ?_, ?_⟩
  · intro w hw fp m hfp hm
    have hused : 0 < users (s.setUnit u v).units fp := users_pos (s := s.setUnit u v) hw hfp
    by_cases hwu : w = u
    · rw [hwu, setUnit_self, hfile'] at hfp
      exact nomatch hfp
    · rw [setUnit_ne hwu] at hfp hm
      obtain ⟨x, hx, hxname, rfl⟩ := hl.known w hw fp m hfp hm
      obtain ⟨y, hy, hyname, hyfp⟩ := hnamed x hx hused
      refine ⟨y, ?_, hyname.trans hxname, hyfp⟩
      show y ∈ (s.releaseFile e.fp).openFiles
      rw [hopen]
      exact hy
  · intro x hx
    obtain ⟨_, _, y, hy, hyname, hyfp⟩ := hkept x (hopen ▸ hx)
    rw [← hyname, ← hyfp]
    exact hl.inode y hy
  · intro x hx
    obtain ⟨_, _, y, hy, _, hyfp⟩ := hkept x (hopen ▸ hx)
    rw [← hyfp]
    exact hl.fresh y hy
  · exact hopen ▸ hnodup'
  · intro x hx
    exact (hkept x (hopen ▸ hx)).1
  · intro x hx
    exact (hkept x (hopen ▸ hx)).2.1

end

end PDBlock3

end GSSquared.Block
