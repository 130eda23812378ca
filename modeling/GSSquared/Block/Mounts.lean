/-
What is mounted where, over whole runs.
-/
import GSSquared.Block.Ledger

set_option linter.all false

namespace GSSquared.Block

open Bits Wire

namespace PDBlock3

def Uses (s : PDBlock3) (u inode n : Nat) : Prop :=
  ∃ fp m, (s.units u).file = some fp ∧ (s.units u).media = some m ∧ fp.inode = inode ∧ m.Covers n

/-- Units do not share bytes, and have none past the end of a file. -/
structure Spread (s : PDBlock3) : Prop where
  inside : ∀ u, u < maxUnits → ∀ i n, s.Uses u i n → n < (s.disk i).length
  apart : ∀ u v, u < maxUnits → v < maxUnits → u ≠ v → ∀ i n, s.Uses u i n → ¬s.Uses v i n

/-- What keeps the books, and with them the units apart. -/
structure Keeps (h : Host) (s t : PDBlock3) : Prop where
  ledger : Ledger h s → Ledger h t
  spread : Ledger h s → Spread s → Spread t

/-- The same units have the same files. -/
structure Quiet (s t : PDBlock3) : Prop where
  file : ∀ u, (t.units u).file = (s.units u).file
  media : ∀ u, (t.units u).media = (s.units u).media
  openFiles : t.openFiles = s.openFiles
  nextId : t.nextId = s.nextId

section

variable {h : Host} {s t : PDBlock3} {u : Nat} {fp : Handle} {m : Descriptor}

theorem Keeps.refl (h : Host) (s : PDBlock3) : Keeps h s s := ⟨id, fun _ => id⟩

theorem Keeps.trans {r : PDBlock3} (hst : Keeps h s t) (htr : Keeps h t r) : Keeps h s r :=
  ⟨fun hl => htr.ledger (hst.ledger hl), fun hl hs => htr.spread (hst.ledger hl) (hst.spread hl hs)⟩

theorem Quiet.ledger (hq : Quiet s t) (hl : Ledger h s) : Ledger h t := by
  have husers : ∀ fp, users t.units fp = users s.units fp := users_same (fun w _ => hq.file w)
  refine ⟨?_, ?_, ?_, ?_, ?_, ?_, ?_, ?_⟩
  · intro w hw
    rw [hq.file, hq.media]
    exact hl.paired w hw
  · intro w hw m
    rw [hq.media]
    exact hl.blocks w hw m
  · intro w hw fp m
    rw [hq.file, hq.media, hq.openFiles]
    exact hl.known w hw fp m
  · rw [hq.openFiles]
    exact hl.inode
  · rw [hq.openFiles, hq.nextId]
    exact hl.fresh
  · rw [hq.openFiles]
    exact hl.handles
  · rw [hq.openFiles]
    intro e he
    rw [husers]
    exact hl.refs e he
  · rw [hq.openFiles]
    exact hl.live

theorem Quiet.uses (hq : Quiet s t) {i n : Nat} (huse : t.Uses u i n) : s.Uses u i n := by
  obtain ⟨fp, m, hfile, hmedia, hi, hn⟩ := huse
  rw [hq.file] at hfile
  rw [hq.media] at hmedia
  exact ⟨fp, m, hfile, hmedia, hi, hn⟩

theorem Spread.fewer (hs : Spread s) (hlen : ∀ i, (t.disk i).length = (s.disk i).length)
    (hfewer : ∀ u, u < maxUnits → ∀ i n, t.Uses u i n → s.Uses u i n) : Spread t := by
  constructor
  · intro u hu i n huse
    rw [hlen]
    exact hs.inside u hu i n (hfewer u hu i n huse)
  · intro u v hu hv hne i n huse huse'
    exact hs.apart u v hu hv hne i n (hfewer u hu i n huse) (hfewer v hv i n huse')

theorem Keeps.of_quiet (hq : Quiet s t)
    (hlen : Ledger h s → Spread s → ∀ i, (t.disk i).length = (s.disk i).length) : Keeps h s t :=
  ⟨hq.ledger, fun hl hs => hs.fewer (hlen hl hs) (fun _ _ _ _ => hq.uses)⟩

theorem Keeps.of_same (hunits : t.units = s.units) (hfiles : t.openFiles = s.openFiles) (hid : t.nextId = s.nextId)
    (hdisk : t.disk = s.disk) : Keeps h s t := by
  refine .of_quiet ⟨?_, ?_, hfiles, hid⟩ (fun _ _ i => by rw [hdisk])
  · intro u
    rw [hunits]
  · intro u
    rw [hunits]

theorem Keeps.setUnit {v : Volume} (hfile : v.file = (s.units u).file) (hmedia : v.media = (s.units u).media) :
    Keeps h s (s.setUnit u v) := by
  refine .of_quiet ⟨?_, ?_, rfl, rfl⟩ (fun _ _ _ => rfl)
  · intro w
    by_cases hwu : w = u
    · rw [hwu, setUnit_self, hfile]
    · rw [setUnit_ne hwu]
  · intro w
    by_cases hwu : w = u
    · rw [hwu, setUnit_self, hmedia]
    · rw [setUnit_ne hwu]

theorem Keeps.fail (hk : Keeps h s t) (e : Byte) : Keeps h s (t.fail e) := hk.trans (.of_same rfl rfl rfl rfl)

theorem online_ok {drive : Nat} (hon : s.online drive = .ok (fp, m)) :
    drive < maxUnits ∧ (s.units drive).file = some fp ∧ (s.units drive).media = some m := by
  unfold online at hon
  split at hon
  · exact nomatch hon
  · rename_i hdrive
    split at hon
    · rename_i hfile hmedia
      cases hon
      exact ⟨Nat.lt_of_not_le hdrive, hfile, hmedia⟩
    · exact nomatch hon

/-! ## What the guest does -/

theorem Keeps.readBlock (drive block addr : Nat) : Keeps h s (s.readBlock drive block addr) := by
  unfold PDBlock3.readBlock
  split
  · exact .of_same rfl rfl rfl rfl
  · split
    · exact .of_same rfl rfl rfl rfl
    split
    · exact .of_same rfl rfl rfl rfl
    · dsimp only
      split
      · exact .of_same rfl rfl rfl rfl
      · split <;> exact .of_same rfl rfl rfl rfl

theorem writeAt_length {file bs : List Byte} {off : Nat} (hin : off + bs.length ≤ file.length) :
    (writeAt file off bs).length = file.length := by
  unfold writeAt
  simp only [List.length_append, List.length_take, List.length_replicate, List.length_drop]
  omega

theorem Keeps.storeFile {off : Nat} {bs : List Byte} (hu : u < maxUnits) (hfile : (s.units u).file = some fp)
    (hmedia : (s.units u).media = some m) (hbs : 0 < bs.length) (hoff : m.dataOffset ≤ off)
    (hend : off + bs.length ≤ m.dataOffset + m.blockCount * m.blockSize) : Keeps h s (s.storeFile fp off bs) := by
  unfold PDBlock3.storeFile
  split
  · refine .of_quiet ⟨fun _ => rfl, fun _ => rfl, rfl, rfl⟩ (fun _ hs i => ?_)
    show (if i = fp.inode then writeAt (s.disk i) off bs else s.disk i).length = (s.disk i).length
    split
    · rename_i hi
      have hlast := hs.inside u hu fp.inode (off + bs.length - 1) ⟨fp, m, hfile, hmedia, rfl, by omega, by omega⟩
      rw [← hi] at hlast
      exact writeAt_length (by omega)
    · rfl
  · exact .refl h s

theorem storeFile_units (fp : Handle) (off : Nat) (bs : List Byte) (s : PDBlock3) :
    (s.storeFile fp off bs).units = s.units := by
  unfold PDBlock3.storeFile
  split <;> rfl

theorem block_end {m : Descriptor} {block : Nat} (hblock : block < m.blockCount) :
    m.dataOffset + block * m.blockSize + m.blockSize ≤ m.dataOffset + m.blockCount * m.blockSize := by
  have hmul := Nat.mul_le_mul_right m.blockSize (Nat.succ_le_of_lt hblock)
  rw [Nat.succ_mul] at hmul
  omega

theorem Keeps.writeBlock (drive block addr : Nat) : Keeps h s (s.writeBlock drive block addr) := by
  unfold PDBlock3.writeBlock
  split
  · exact .of_same rfl rfl rfl rfl
  · rename_i fp m hon
    obtain ⟨hdrive, hfile, hmedia⟩ := online_ok hon
    split
    · exact .of_same rfl rfl rfl rfl
    rename_i hsize
    split
    · exact .of_same rfl rfl rfl rfl
    rename_i hblock
    split
    · exact .of_same rfl rfl rfl rfl
    dsimp only
    split
    · exact .setUnit rfl rfl
    · have hlen : (s.memoryBytes addr m.blockSize).length = m.blockSize := by
        rw [PDBlock3.memoryBytes, List.length_map, List.length_range]
      have hend := block_end (Nat.lt_of_not_le hblock)
      refine .storeFile hdrive hfile hmedia ?_ (Nat.le_add_right _ _) ?_
      · rw [hlen]
        omega
      · rw [hlen]
        exact hend

theorem Keeps.zeroBlocks (hu : u < maxUnits) (hfile : (s.units u).file = some fp) (hmedia : (s.units u).media = some m)
    (hsize : 0 < m.blockSize) (n block : Nat) (hblock : block + n ≤ m.blockCount) :
    Keeps h s (s.zeroBlocks fp m block n) := by
  induction n generalizing s block with
  | zero => exact .refl h s
  | succ n ih =>
    rw [PDBlock3.zeroBlocks]
    have hend : m.dataOffset + block * m.blockSize + m.blockSize ≤ m.dataOffset + m.blockCount * m.blockSize :=
      block_end (by omega)
    have hunits := storeFile_units fp (m.dataOffset + block * m.blockSize) (List.replicate m.blockSize 0) s
    refine Keeps.trans (.storeFile hu hfile hmedia ?_ (Nat.le_add_right _ _) ?_) (ih ?_ ?_ (block + 1) (by omega))
    · rw [List.length_replicate]
      exact hsize
    · rw [List.length_replicate]
      exact hend
    · rw [hunits]
      exact hfile
    · rw [hunits]
      exact hmedia

theorem Keeps.formatDevice (drive : Nat) : Keeps h s (s.formatDevice drive) := by
  unfold PDBlock3.formatDevice
  split
  · exact .of_same rfl rfl rfl rfl
  · rename_i fp m hon
    obtain ⟨hdrive, hfile, hmedia⟩ := online_ok hon
    split
    · exact .of_same rfl rfl rfl rfl
    rename_i hsize
    split
    · exact .of_same rfl rfl rfl rfl
    dsimp only
    split
    · apply Keeps.fail
      exact .setUnit rfl rfl
    split
    · exact .of_same rfl rfl rfl rfl
    · exact (Keeps.zeroBlocks hdrive hfile hmedia (by omega) _ 0 (by omega)).fail 0

theorem Keeps.driveStatus (u : Nat) : Keeps h s (s.driveStatus u).2 := by
  unfold PDBlock3.driveStatus
  split
  · exact .refl h s
  · exact .setUnit rfl rfl

theorem Keeps.spStatus (f : Forms) (clist : Nat) : Keeps h s (s.spStatus f clist) := by
  unfold PDBlock3.spStatus
  dsimp only
  split
  · split
    · exact .of_same rfl rfl rfl rfl
    split
    · exact .of_same rfl rfl rfl rfl
    · exact (Keeps.driveStatus _).trans (.of_same rfl rfl rfl rfl)
  split
  · split
    · exact .of_same rfl rfl rfl rfl
    · exact (Keeps.driveStatus _).trans (.of_same rfl rfl rfl rfl)
  · exact .of_same rfl rfl rfl rfl

/-! ## Unmounting -/

theorem Keeps.empty {v : Volume} (hu : u < maxUnits) (hfile : v.file = none) (hmedia : v.media = none) :
    Keeps h s ((match (s.units u).file with
      | some fp => s.releaseFile fp
      | none => s).setUnit u v) := by
  cases hold : (s.units u).file with
  | none =>
    constructor
    · intro hl
      have hnone := (hl.paired u hu).mp hold
      exact (Keeps.setUnit (h := h) (hfile.trans hold.symm) (hmedia.trans hnone.symm)).ledger hl
    · intro hl hs
      have hnone := (hl.paired u hu).mp hold
      exact (Keeps.setUnit (h := h) (hfile.trans hold.symm) (hmedia.trans hnone.symm)).spread hl hs
  | some fp =>
    refine ⟨fun hl => hl.release hu hold hfile hmedia, fun _ hs => hs.fewer (fun _ => rfl) ?_⟩
    rintro w _ i n ⟨fp', m, hfile', hmedia', hi, hn⟩
    by_cases hwu : w = u
    · rw [hwu, setUnit_self, hfile] at hfile'
      exact nomatch hfile'
    · rw [setUnit_ne hwu] at hfile' hmedia'
      exact ⟨fp', m, hfile', hmedia', hi, hn⟩

theorem Keeps.foldl {op : PDBlock3 → Nat → PDBlock3} {us : List Nat} (hus : ∀ u ∈ us, u < maxUnits)
    (hop : ∀ s u, u < maxUnits → Keeps h s (op s u)) : Keeps h s (us.foldl op s) := by
  induction us generalizing s with
  | nil => exact .refl h s
  | cons u us ih =>
    rw [List.foldl_cons]
    exact (hop s u (hus u List.mem_cons_self)).trans (ih (fun w hw => hus w (List.mem_cons_of_mem u hw)))

theorem Keeps.unmount (key : Key) : Keeps h s (s.unmount key) := by
  unfold PDBlock3.unmount
  split
  · exact .refl h s
  · refine .foldl (fun u hu => List.mem_range.mp hu) (fun s u hu => ?_)
    unfold unmountUnit
    dsimp only
    split
    · exact .empty hu rfl rfl
    · exact .refl h s

theorem Keeps.giveUp {us : List Nat} (hus : ∀ u ∈ us, u < maxUnits) : Keeps h s (s.giveUp us) :=
  .foldl hus (fun _ _ hu => .empty hu rfl rfl)

/-! ## Commands -/

theorem Keeps.spExecuteImpl (f : Forms) (cmdnum : Byte) (clist : Nat) :
    Keeps h s (s.spExecuteImpl f cmdnum clist) := by
  unfold PDBlock3.spExecuteImpl
  dsimp only
  split
  · exact .spStatus f clist
  split
  · split
    · exact .of_same rfl rfl rfl rfl
    · exact .readBlock _ _ _
  split
  · split
    · exact .of_same rfl rfl rfl rfl
    · exact .writeBlock _ _ _
  split
  · split
    · exact .of_same rfl rfl rfl rfl
    · exact .formatDevice _
  split
  · split
    · exact .of_same rfl rfl rfl rfl
    split
    · exact .of_same rfl rfl rfl rfl
    split
    · exact .unmount _
    · exact .refl h s
  · exact .of_same rfl rfl rfl rfl

theorem Keeps.reset (hk : Keeps h s t) : Keeps h s t.reset := hk.trans (.of_same rfl rfl rfl rfl)

theorem Keeps.clearStatus : Keeps h s s.clearStatus := .of_same rfl rfl rfl rfl

theorem Keeps.pdExecute : Keeps h s s.pdExecute := by
  unfold PDBlock3.pdExecute
  dsimp only
  split
  · exact .of_same rfl rfl rfl rfl
  split
  · exact .of_same rfl rfl rfl rfl
  split
  · exact .of_same rfl rfl rfl rfl
  split
  · split <;> exact .of_same rfl rfl rfl rfl
  split
  · exact Keeps.clearStatus.trans (.readBlock _ _ _)
  split
  · exact Keeps.clearStatus.trans (.writeBlock _ _ _)
  split
  · exact Keeps.clearStatus.trans (.formatDevice _)
  · exact .clearStatus

theorem Keeps.execute : Keeps h s s.execute := by
  unfold PDBlock3.execute
  dsimp only
  apply Keeps.reset
  split
  · exact .pdExecute
  split
  · split
    · exact Keeps.clearStatus.trans (.spExecuteImpl _ _ _)
    · exact Keeps.clearStatus.trans (.spExecuteImpl _ _ _)
  · exact .of_same rfl rfl rfl rfl

/-! ## Mounting -/

inductive Mounted (h : Host) : List Nat → List Descriptor → PDBlock3 → PDBlock3 → Prop where
  | nil (s : PDBlock3) : Mounted h [] [] s s
  | cons {u : Nat} {us : List Nat} {m : Descriptor} {ms : List Descriptor} {s t r : PDBlock3} {fp : Handle} {v : Volume}
      (hu : u < maxUnits) (hfree : (s.units u).file = none)
      (hacq : s.acquireFile h m.filename m.writeProtected = some (fp, t))
      (hfile : v.file = some fp) (hmedia : v.media = some m) (hrest : Mounted h us ms (t.setUnit u v) r) :
      Mounted h (u :: us) (m :: ms) s r

theorem unusedUnit_spec (s : PDBlock3) (n : Nat) (hne : s.unusedUnit n ≠ maxUnits) :
    s.unusedUnit n < maxUnits ∧ (s.units (s.unusedUnit n)).file = none := by
  induction n with
  | zero => exact absurd rfl hne
  | succ n ih =>
    unfold unusedUnit at hne ⊢
    split at hne
    · rename_i hfree
      rw [if_pos hfree]
      exact ⟨Nat.sub_lt (by decide) (Nat.succ_pos n), hfree⟩
    · rename_i hused
      rw [if_neg hused]
      exact ih hne

theorem loadRam_file (s : PDBlock3) (v : Volume) : (s.loadRam v).file = v.file ∧ (s.loadRam v).media = v.media := by
  unfold loadRam
  split
  · dsimp only
    split
    · exact ⟨rfl, rfl⟩
    split <;> exact ⟨rfl, rfl⟩
  · exact ⟨rfl, rfl⟩

variable (h s) in
theorem mountLoop_cases {ramdisk : Descriptor → Bool} {ok : Bool} {key : Key} {ms : List Descriptor} {first : Nat} {assigned : List Nat}
    (hrun : mountLoop h ramdisk key ms first assigned s = (ok, t)) :
    (ok = true ∧ ∃ us, Mounted h us ms s t) ∨
      (ok = false ∧ ∃ us ms' r, Mounted h us ms' s r ∧ ms' <+: ms ∧ t = r.giveUp (assigned ++ us)) := by
  induction ms generalizing first assigned s with
  | nil =>
    cases hrun
    exact .inl ⟨rfl, [], .nil _⟩
  | cons m ms ih =>
    rw [mountLoop] at hrun
    dsimp only at hrun
    split at hrun
    · cases hrun
      exact .inr ⟨rfl, [], [], s, .nil s, List.nil_prefix, by rw [List.append_nil]⟩
    rename_i hroom
    obtain ⟨hu, hfree⟩ := unusedUnit_spec s _ hroom
    split at hrun
    · cases hrun
      exact .inr ⟨rfl, [], [], s, .nil s, List.nil_prefix, by rw [List.append_nil]⟩
    rename_i fp q hacq
    generalize hv : (if ramdisk m = true then _ else _ : Volume) = v at hrun
    have hplaced : v.file = some fp ∧ v.media = some m := by
      rw [← hv]
      split
      · exact loadRam_file _ _
      · exact ⟨rfl, rfl⟩
    rcases ih _ hrun with ⟨hok, us, hmounted⟩ | ⟨hok, us, ms', r, hmounted, hfront, ht⟩
    · exact .inl ⟨hok, _ :: us, .cons hu hfree hacq hplaced.1 hplaced.2 hmounted⟩
    · refine .inr ⟨hok, _ :: us, m :: ms', r, .cons hu hfree hacq hplaced.1 hplaced.2 hmounted, ?_, ?_⟩
      · exact List.cons_prefix_cons.mpr ⟨rfl, hfront⟩
      · rw [ht, List.append_assoc]
        rfl

theorem acquireFile_same {name : Name} {prot : Bool} (hacq : s.acquireFile h name prot = some (fp, t)) :
    t.units = s.units ∧ t.disk = s.disk := by
  unfold acquireFile at hacq
  split at hacq
  · cases Option.some.inj hacq
    exact ⟨rfl, rfl⟩
  · split at hacq
    · exact nomatch hacq
    · cases Option.some.inj hacq
      exact ⟨rfl, rfl⟩

structure Filled (h : Host) (us : List Nat) (ms : List Descriptor) (s t : PDBlock3) : Prop where
  ledger : Ledger h t
  disk : t.disk = s.disk
  kept : ∀ w, w ∉ us → t.units w = s.units w
  free : ∀ w ∈ us, w < maxUnits ∧ (s.units w).file = none
  taken : ∀ w ∈ us, ∃ fp m, m ∈ ms ∧ (t.units w).file = some fp ∧ (t.units w).media = some m ∧
    h.inode m.filename = some fp.inode

theorem Mounted.filled {us : List Nat} {ms : List Descriptor} (hm : Mounted h us ms s t) (hl : Ledger h s)
    (hms : ∀ m ∈ ms, m.blockSize = 512 ∧ m.filename ≠ []) : Filled h us ms s t := by
  induction hm with
  | nil s => exact ⟨hl, rfl, fun _ _ => rfl, fun w hw => absurd hw List.not_mem_nil, fun w hw => absurd hw List.not_mem_nil⟩
  | cons hu hfree hacq hfile hmedia hrest ih =>
    rename_i u us m ms s t r fp v
    obtain ⟨hl', hinode⟩ := hl.acquire hu hfree (hms m List.mem_cons_self) hacq hfile hmedia
    obtain ⟨hledger, hdisk, hkept, hfree', htaken⟩ := ih hl' (fun m' hm' => hms m' (List.mem_cons_of_mem m hm'))
    obtain ⟨hunits, hdisk'⟩ := acquireFile_same hacq
    have hnew : u ∉ us := by
      intro hmem
      have hnone := (hfree' u hmem).2
      rw [setUnit_self, hfile] at hnone
      exact nomatch hnone
    refine ⟨hledger, hdisk.trans hdisk', ?_, ?_, ?_⟩
    · intro w hw
      rw [hkept w (List.not_mem_of_not_mem_cons hw), setUnit_ne (List.ne_of_not_mem_cons hw), hunits]
    · intro w hw
      rcases List.mem_cons.mp hw with rfl | hw
      · exact ⟨hu, hfree⟩
      · have hwu : w ≠ u := fun heq => hnew (heq ▸ hw)
        have hwfree := hfree' w hw
        rw [setUnit_ne hwu, hunits] at hwfree
        exact hwfree
    · intro w hw
      rcases List.mem_cons.mp hw with rfl | hw
      · rw [hkept w hnew, setUnit_self]
        exact ⟨fp, m, List.mem_cons_self, hfile, hmedia, hinode⟩
      · obtain ⟨fp', m', hm', htaken'⟩ := htaken w hw
        exact ⟨fp', m', List.mem_cons_of_mem m hm', htaken'⟩

theorem Mounted.pairs {us : List Nat} {ms : List Descriptor} {R : Descriptor → Descriptor → Prop}
    (hm : Mounted h us ms s t) (hl : Ledger h s) (hms : ∀ m ∈ ms, m.blockSize = 512 ∧ m.filename ≠ [])
    (hR : ms.Pairwise R) : ∀ w ∈ us, ∀ x ∈ us, w ≠ x → ∀ a b, (t.units w).media = some a → (t.units x).media = some b →
      R a b ∨ R b a := by
  induction hm with
  | nil s => exact fun w hw => absurd hw List.not_mem_nil
  | cons hu hfree hacq hfile hmedia hrest ih =>
    rename_i u us m ms s t r fp v
    have hl' := (hl.acquire hu hfree (hms m List.mem_cons_self) hacq hfile hmedia).1
    have hms' : ∀ m' ∈ ms, m'.blockSize = 512 ∧ m'.filename ≠ [] := fun m' hm' => hms m' (List.mem_cons_of_mem m hm')
    obtain ⟨hhead, htail⟩ := List.pairwise_cons.mp hR
    have hfilled := hrest.filled hl' hms'
    have hnew : u ∉ us := by
      intro hmem
      have hnone := (hfilled.free u hmem).2
      rw [setUnit_self, hfile] at hnone
      exact nomatch hnone
    have hfirst : ∀ a, (r.units u).media = some a → a = m := by
      intro a ha
      rw [hfilled.kept u hnew, setUnit_self, hmedia] at ha
      exact (Option.some.inj ha).symm
    have hother : ∀ w ∈ us, ∀ b, (r.units w).media = some b → b ∈ ms := by
      intro w hw b hb
      obtain ⟨_, b', hmem, _, hb', _⟩ := hfilled.taken w hw
      rw [hb'] at hb
      exact Option.some.inj hb ▸ hmem
    intro w hw x hx hne a b ha hb
    rcases List.mem_cons.mp hw with hwu | hw' <;> rcases List.mem_cons.mp hx with hxu | hx'
    · exact absurd (hwu.trans hxu.symm) hne
    · rw [hfirst a (hwu ▸ ha)]
      exact .inl (hhead b (hother x hx' b hb))
    · rw [hfirst b (hxu ▸ hb)]
      exact .inr (hhead a (hother w hw' a ha))
    · exact ih hl' hms' htail w hw' x hx' hne a b ha hb

def freeUnits (s : PDBlock3) : Nat := (List.range maxUnits).countP (fun u => decide ((s.units u).file = none))

theorem Mounted.room {us : List Nat} {ms : List Descriptor} (hm : Mounted h us ms s t) :
    ms.length ≤ s.freeUnits := by
  induction hm with
  | nil s => exact Nat.zero_le _
  | cons hu hfree hacq hfile hmedia hrest ih =>
    rename_i u us m ms s t r fp v
    have hcount := countP_range_update hu (p := fun w => decide (((t.setUnit u v).units w).file = none))
      (q := fun w => decide ((s.units w).file = none))
      (fun w hw => by rw [setUnit_ne hw, (acquireFile_same hacq).1])
    rw [setUnit_self, hfile, hfree] at hcount
    simp only [reduceCtorEq, decide_false, decide_true, Bool.false_eq_true, if_true, if_false, Nat.add_zero] at hcount
    rw [List.length_cons]
    unfold freeUnits at ih ⊢
    omega

theorem Mounted.opens {us : List Nat} {ms : List Descriptor} {prot : Name → Bool} (hm : Mounted h us ms s t)
    (hprot : ∀ m ∈ ms, m.writeProtected = prot m.filename)
    (hopen : ∀ e ∈ s.openFiles, (∃ m ∈ ms, m.filename = e.name) → h.openFile e.name (prot e.name) ≠ none) :
    ∀ m ∈ ms, h.openFile m.filename m.writeProtected ≠ none := by
  induction hm with
  | nil s => exact fun m hm => absurd hm List.not_mem_nil
  | cons hu hfree hacq hfile hmedia hrest ih =>
    rename_i u us m ms s t r fp v
    have hown := hprot m List.mem_cons_self
    have hboth : h.openFile m.filename m.writeProtected ≠ none ∧
        ∀ e ∈ t.openFiles, (∃ m' ∈ ms, m'.filename = e.name) → h.openFile e.name (prot e.name) ≠ none := by
      unfold acquireFile at hacq
      split at hacq
      · rename_i fp' files hin
        cases Option.some.inj hacq
        obtain ⟨l, e, q, hfiles, hname, _, rfl⟩ := acquireIn_some hin
        have hmem : e ∈ s.openFiles := by
          rw [hfiles]
          exact mem_middle.mpr (.inl rfl)
        refine ⟨?_, ?_⟩
        · rw [hown, ← hname]
          exact hopen e hmem ⟨m, List.mem_cons_self, hname.symm⟩
        · rintro x hx ⟨m', hm', hname'⟩
          obtain ⟨y, hy, hyname, _⟩ := entry_kept (a := { e with refs := e.refs + 1 }) (b := e) rfl rfl hx
          rw [← hyname]
          rw [← hfiles] at hy
          exact hopen y hy ⟨m', List.mem_cons_of_mem m hm', hname'.trans hyname.symm⟩
      · split at hacq
        · exact nomatch hacq
        · rename_i i hopened
          have hsome : h.openFile m.filename m.writeProtected ≠ none := by
            rw [hopened]
            exact Option.some_ne_none i
          cases Option.some.inj hacq
          refine ⟨hsome, ?_⟩
          rintro x hx ⟨m', hm', hname'⟩
          rcases List.mem_cons.mp hx with rfl | hold
          · show h.openFile m.filename (prot m.filename) ≠ none
            rw [← hown]
            exact hsome
          · exact hopen x hold ⟨m', List.mem_cons_of_mem m hm', hname'⟩
    intro m' hm'
    rcases List.mem_cons.mp hm' with rfl | hm'
    · exact hboth.1
    · exact ih (fun m'' hm'' => hprot m'' (List.mem_cons_of_mem m hm'')) hboth.2 m' hm'

theorem giveUp_cons (u : Nat) (us : List Nat) (s : PDBlock3) :
    s.giveUp (u :: us) = ((match (s.units u).file with
      | some fp => s.releaseFile fp
      | none => s).setUnit u { s.units u with file := none, media := none, key := {} }).giveUp us := rfl

theorem giveUp_units (us : List Nat) (s : PDBlock3) :
    (s.giveUp us).disk = s.disk ∧ (∀ w, w ∉ us → (s.giveUp us).units w = s.units w) ∧
      ∀ w, w ∈ us ∨ (s.units w).file = none → ((s.giveUp us).units w).file = none := by
  induction us generalizing s with
  | nil =>
    refine ⟨rfl, fun _ _ => rfl, fun w hw => ?_⟩
    exact hw.resolve_left List.not_mem_nil
  | cons u us ih =>
    rw [giveUp_cons]
    generalize hr : (match (s.units u).file with
      | some fp => s.releaseFile fp
      | none => s) = r
    have hsame : r.units = s.units ∧ r.disk = s.disk := by
      rw [← hr]
      split <;> exact ⟨rfl, rfl⟩
    obtain ⟨hdisk, hkept, hnone⟩ := ih (r.setUnit u { s.units u with file := none, media := none, key := {} })
    refine ⟨hdisk.trans hsame.2, fun w hw => ?_, fun w hw => hnone w ?_⟩
    · rw [hkept w (List.not_mem_of_not_mem_cons hw), setUnit_ne (List.ne_of_not_mem_cons hw), hsame.1]
    · by_cases hwu : w = u
      · rw [hwu, setUnit_self]
        exact .inr rfl
      · rw [setUnit_ne hwu, hsame.1]
        rcases hw with hw | hfree
        · exact .inl ((List.mem_cons.mp hw).resolve_left hwu)
        · exact .inr hfree

theorem vetted_all {before ms : List Descriptor} (hv : vetted h s before ms = true) :
    ∀ m ∈ ms, accepted m = true ∧ hostFileAlreadyMounted h s m.filename = false := by
  induction ms generalizing before with
  | nil => exact fun m hm => absurd hm List.not_mem_nil
  | cons m ms ih =>
    rw [vetted, Bool.and_eq_true_iff, Bool.and_eq_true_iff, Bool.and_eq_true_iff] at hv
    obtain ⟨⟨⟨haccepted, hmounted⟩, _⟩, hrest⟩ := hv
    intro m' hm'
    rcases List.mem_cons.mp hm' with rfl | hm'
    · exact ⟨haccepted, (Bool.not_eq_true' _).mp hmounted⟩
    · exact ih hrest m' hm'

theorem accepted_spec (ha : accepted m = true) : m.mediaType = .blk ∧ m.blockSize = 512 :=
  have hall := of_decide_eq_true ha
  ⟨hall.1, hall.2.1⟩

theorem not_mounted {name : Name} (hmounted : hostFileAlreadyMounted h s name = false) (hname : name ≠ [])
    (hu : u < maxUnits) (hmedia : (s.units u).media = some m) (hm : m.filename ≠ []) :
    m.filename ≠ name ∧ (h.inode m.filename = none ∨ h.inode m.filename ≠ h.inode name) := by
  have hunit := List.any_eq_false.mp hmounted u (List.mem_range.mpr hu)
  rw [hmedia] at hunit
  have hfalse : h.sameHostFile m.filename name = false := Bool.eq_false_iff.mpr hunit
  unfold Host.sameHostFile at hfalse
  rw [if_neg (by rintro (hnil | hnil) <;> contradiction)] at hfalse
  split at hfalse
  · exact nomatch hfalse
  · rename_i hne
    refine ⟨hne, ?_⟩
    cases hi : h.inode m.filename with
    | none => exact .inl rfl
    | some i =>
      refine .inr fun heq => ?_
      rw [← heq, hi] at hfalse
      simp at hfalse

def Apart (h : Host) (a b : Descriptor) : Prop :=
  h.inode a.filename = h.inode b.filename → ∀ n, a.Covers n → ¬b.Covers n

structure Mountable (h : Host) (key : Key) (media : List Descriptor) (s : PDBlock3) : Prop where
  drive : key.drive < maxDevices
  vetted : vetted h s [] media = true
  room : media.length ≤ s.freeUnits
  opens : ∀ m ∈ media, h.openFile m.filename m.writeProtected ≠ none

/-- The volumes do not overlap, and the sizes of their files are numbers of 31 bits. -/
structure Sound (h : Host) (media : List Descriptor) (s : PDBlock3) : Prop where
  apart : media.Pairwise (Apart h)
  sizes : ∀ m ∈ media, ∀ i, h.inode m.filename = some i → (s.disk i).length % 2 ^ 32 < 2 ^ 31

theorem mount_cases (h : Host) (ramdisk : Descriptor → Bool) (key : Key) (media : List Descriptor) (s : PDBlock3) :
    (s.mount h ramdisk key media).2 = s ∨
      key.drive < maxDevices ∧ vetted h s [] media = true ∧
        ((∃ us, Mounted h us media s (s.mount h ramdisk key media).2) ∨
          ∃ us ms r, Mounted h us ms s r ∧ ms <+: media ∧ (s.mount h ramdisk key media).2 = r.giveUp us) := by
  unfold mount
  split
  · exact .inl rfl
  rename_i hkey
  split
  · exact .inl rfl
  rename_i hvetted
  refine .inr ⟨Nat.lt_of_not_le (fun hle => hkey (.inr hle)), by simpa using hvetted, ?_⟩
  rcases mountLoop_cases h s rfl with ⟨_, us, hmounted⟩ | ⟨_, us, ms, r, hmounted, hfront, ht⟩
  · exact .inl ⟨us, hmounted⟩
  · exact .inr ⟨us, ms, r, hmounted, hfront, ht⟩

section

variable {key : Key} {media : List Descriptor} {ramdisk : Descriptor → Bool}

theorem vetted_blocks (hv : vetted h s [] media = true) (hnamed : ∀ m ∈ media, m.filename ≠ []) :
    ∀ m ∈ media, m.blockSize = 512 ∧ m.filename ≠ [] :=
  fun m hm => ⟨(accepted_spec (vetted_all hv m hm).1).2, hnamed m hm⟩

theorem Ledger.mount (hl : Ledger h s) (hnamed : ∀ m ∈ media, m.filename ≠ []) :
    Ledger h (s.mount h ramdisk key media).2 := by
  rcases mount_cases h ramdisk key media s with hsame | ⟨_, hvetted, hdone⟩
  · rw [hsame]
    exact hl
  have hms := vetted_blocks hvetted hnamed
  rcases hdone with ⟨us, hmounted⟩ | ⟨us, ms, r, hmounted, hfront, ht⟩
  · exact (hmounted.filled hl hms).ledger
  · have hfilled := hmounted.filled hl (fun m hm => hms m (hfront.subset hm))
    rw [ht]
    exact (Keeps.giveUp (fun u hu => (hfilled.free u hu).1)).ledger hfilled.ledger

theorem Ledger.inode_of (hl : Ledger h s) (hu : u < maxUnits) (hfile : (s.units u).file = some fp)
    (hmedia : (s.units u).media = some m) : h.inode m.filename = some fp.inode := by
  obtain ⟨e, he, hname, hfp⟩ := hl.known u hu fp m hfile hmedia
  rw [← hname, ← hfp]
  exact hl.inode e he

theorem Ledger.mounted_name (hl : Ledger h s) {e : OpenFile} (he : e ∈ s.openFiles) :
    ∃ u m, u < maxUnits ∧ (s.units u).media = some m ∧ m.filename = e.name := by
  have hused := hl.live e he
  rw [hl.refs e he] at hused
  obtain ⟨u, hu, hfile⟩ := List.countP_pos_iff.mp hused
  have hu := List.mem_range.mp hu
  have hfile : (s.units u).file = some e.fp := of_decide_eq_true hfile
  cases hmedia : (s.units u).media with
  | none =>
    rw [(hl.paired u hu).mpr hmedia] at hfile
    exact nomatch hfile
  | some m =>
    obtain ⟨e', he', hname, hfp⟩ := hl.known u hu e.fp m hfile hmedia
    refine ⟨u, m, hu, hmedia, ?_⟩
    rw [← hname, List.inj_on_of_nodup_map hl.handles he' he hfp]

theorem Mounted.mountable {us : List Nat} {p : Name → Bool} (hm : Mounted h us media s t) (hl : Ledger h s)
    (hdrive : key.drive < maxDevices) (hvetted : PDBlock3.vetted h s [] media = true)
    (hnamed : ∀ m ∈ media, m.filename ≠ []) (hprot : ∀ m ∈ media, m.writeProtected = p m.filename) :
    Mountable h key media s := by
  refine ⟨hdrive, hvetted, hm.room, hm.opens hprot ?_⟩
  rintro e he ⟨m, hmem, hname⟩
  obtain ⟨u, m', hu, hmedia, hname'⟩ := hl.mounted_name he
  have hne := (not_mounted (vetted_all hvetted m hmem).2 (hnamed m hmem) hu hmedia (hl.blocks u hu m' hmedia).2).1
  exact absurd (hname'.trans hname.symm) hne

theorem Spread.mount {force : Bool} (hs : Spread s) (hl : Ledger h s)
    (hvol : ∀ m ∈ media, VolumeOf h s.disk force m.filename m) (hsafe : Mountable h key media s → Sound h media s) :
    Spread (s.mount h ramdisk key media).2 := by
  have hnamed : ∀ m ∈ media, m.filename ≠ [] := fun m hm => (hvol m hm).named
  rcases mount_cases h ramdisk key media s with hsame | ⟨hdrive, hvetted, hdone⟩
  · rw [hsame]
    exact hs
  have hms := vetted_blocks hvetted hnamed
  rcases hdone with ⟨us, hmounted⟩ | ⟨us, ms, r, hmounted, hfront, ht⟩
  · generalize (s.mount h ramdisk key media).2 = t at hmounted ⊢
    have hfilled := hmounted.filled hl hms
    obtain ⟨hapart, hsizes⟩ := hsafe (hmounted.mountable
      (p := fun name => (identifyMedia h s.disk name).any (·.writeProtected) || force) hl hdrive hvetted hnamed
      (fun m hm => (hvol m hm).writeProtected))
    have hpairs := hmounted.pairs hl hms hapart
    -- a unit of this mount has a volume of the list, and a unit from before is as it was
    have hnew : ∀ w ∈ us, ∀ i n, t.Uses w i n → ∃ m ∈ media, (t.units w).media = some m ∧ m.Covers n ∧
        h.inode m.filename = some i := by
      rintro w hw i n ⟨fp, m, hfile, hmedia, rfl, hn⟩
      obtain ⟨fp', m', hmem, hfile', hmedia', hi⟩ := hfilled.taken w hw
      rw [hfile] at hfile'
      rw [hmedia] at hmedia'
      cases hfile'
      cases hmedia'
      exact ⟨m, hmem, hmedia, hn, hi⟩
    have hold : ∀ w, w ∉ us → ∀ i n, t.Uses w i n → s.Uses w i n := by
      intro w hw i n huse
      unfold Uses at huse ⊢
      rwa [hfilled.kept w hw] at huse
    have hcross : ∀ w x, x < maxUnits → w ∈ us → x ∉ us → ∀ i n, t.Uses w i n → ¬t.Uses x i n := by
      intro w x hx hw hxus i n huse huse'
      obtain ⟨m, hmem, _, _, hi⟩ := hnew w hw i n huse
      obtain ⟨fp, m', hfile, hmedia, hfp, _⟩ := hold x hxus i n huse'
      have hi' := hl.inode_of hx hfile hmedia
      rw [hfp] at hi'
      rcases (not_mounted (vetted_all hvetted m hmem).2 (hnamed m hmem) hx hmedia (hl.blocks x hx m' hmedia).2).2
        with hnone | hne
      · rw [hi'] at hnone
        exact nomatch hnone
      · exact hne (hi'.trans hi.symm)
    constructor
    · intro w hw i n huse
      rw [hfilled.disk]
      by_cases hwus : w ∈ us
      · obtain ⟨m, hmem, _, hn, hi⟩ := hnew w hwus i n huse
        exact (hvol m hmem).in_file (accepted_spec (vetted_all hvetted m hmem).1).1 hi (hsizes m hmem i hi) hn
      · exact hs.inside w hw i n (hold w hwus i n huse)
    · intro w x hw hx hne i n huse huse'
      by_cases hwus : w ∈ us <;> by_cases hxus : x ∈ us
      · obtain ⟨a, _, ha, han, hai⟩ := hnew w hwus i n huse
        obtain ⟨b, _, hb, hbn, hbi⟩ := hnew x hxus i n huse'
        rcases hpairs w hwus x hxus hne a b ha hb with hR | hR
        · exact hR (hai.trans hbi.symm) n han hbn
        · exact hR (hbi.trans hai.symm) n hbn han
      · exact hcross w x hx hwus hxus i n huse huse'
      · exact hcross x w hw hxus hwus i n huse' huse
      · exact hs.apart w x hw hx hne i n (hold w hwus i n huse) (hold x hxus i n huse')
  · have hfilled := hmounted.filled hl (fun m hm => hms m (hfront.subset hm))
    obtain ⟨hdisk, hkept, hnone⟩ := giveUp_units us r
    rw [ht]
    refine hs.fewer (fun i => by rw [hdisk, hfilled.disk]) (fun w _ i n huse => ?_)
    obtain ⟨fp, m, hfile, hmedia, hi, hn⟩ := huse
    by_cases hwus : w ∈ us
    · rw [hnone w (.inl hwus)] at hfile
      exact nomatch hfile
    · rw [hkept w hwus, hfilled.kept w hwus] at hfile hmedia
      exact ⟨fp, m, hfile, hmedia, hi, hn⟩

end

end

/-! ## Runs -/

/-- What is mounted: one image, or a `.pmap`'s list of them. -/
inductive Image where
  | file (name : Name)
  | pmap (names : List Name)

def Image.names : Image → List Name
  | .file name => [name]
  | .pmap names => names

/-- The volumes of `mount_media`. -/
def mediaList (h : Host) (d : Disks) (forceWriteProtected : Bool) (image : Image) : List Descriptor :=
  image.names.flatMap (fun name => (volumesOf h d forceWriteProtected name).getD [])

/-- `mount_media`, of this device. -/
def mountMedia (h : Host) (ramdisk : Descriptor → Bool) (key : Key) (forceWriteProtected : Bool) (image : Image) (s : PDBlock3) :
    PDBlock3 :=
  (s.mount h ramdisk key (mediaList h s.disk forceWriteProtected image)).2

inductive Op where
  | mount (ramdisk : Descriptor → Bool) (key : Key) (forceWriteProtected : Bool) (image : Image)
  | unmount (key : Key)
  | put (data : Byte)
  | execute
  | reset
  /-- The guest's memory changes. -/
  | poke (addr : Nat) (data : Byte)

def step (h : Host) : Op → PDBlock3 → PDBlock3
  | .mount ramdisk key force image, s => s.mountMedia h ramdisk key force image
  | .unmount key, s => s.unmount key
  | .put data, s => s.put data
  | .execute, s => s.execute
  | .reset, s => s.reset
  | .poke addr data, s => { s with mem := storeBytes addr [data] s.mem }

def run (h : Host) : List Op → PDBlock3 → PDBlock3
  | [], s => s
  | op :: ops, s => run h ops (step h op s)

def Admits (h : Host) (s : PDBlock3) : Op → Prop
  | .mount _ key force image =>
    Mountable h key (mediaList h s.disk force image) s → Sound h (mediaList h s.disk force image) s
  | _ => True

def Safe (h : Host) : List Op → PDBlock3 → Prop
  | [], _ => True
  | op :: ops, s => Admits h s op ∧ Safe h ops (step h op s)

structure Fresh (s : PDBlock3) : Prop where
  units : ∀ u, (s.units u).file = none ∧ (s.units u).media = none
  openFiles : s.openFiles = []

section

variable {h : Host} {s t : PDBlock3}

theorem Fresh.ledger (hf : Fresh s) : Ledger h s := by
  have hbooks : ∀ {P : OpenFile → Prop}, ∀ e ∈ s.openFiles, P e := by
    intro P e he
    rw [hf.openFiles] at he
    exact absurd he List.not_mem_nil
  refine ⟨?_, ?_, ?_, hbooks, hbooks, ?_, hbooks, hbooks⟩
  · intro u _
    rw [(hf.units u).1, (hf.units u).2]
    exact ⟨fun _ => rfl, fun _ => rfl⟩
  · intro u _ m hm
    rw [(hf.units u).2] at hm
    exact nomatch hm
  · intro u _ fp m hfile
    rw [(hf.units u).1] at hfile
    exact nomatch hfile
  · rw [hf.openFiles]
    exact List.nodup_nil

theorem Fresh.spread (hf : Fresh s) : Spread s := by
  have hnone : ∀ u i n, ¬s.Uses u i n := by
    rintro u i n ⟨fp, m, hfile, _⟩
    rw [(hf.units u).1] at hfile
    exact nomatch hfile
  exact ⟨fun u _ i n huse => absurd huse (hnone u i n), fun u _ _ _ _ i n huse => absurd huse (hnone u i n)⟩

theorem mediaList_volume {d : Disks} {force : Bool} {image : Image} {m : Descriptor}
    (hm : m ∈ mediaList h d force image) : VolumeOf h d force m.filename m := by
  obtain ⟨name, _, hm⟩ := List.mem_flatMap.mp hm
  have hvol := volumesOf_mem hm
  rw [hvol.filename]
  exact hvol

theorem Keeps.step {op : Op} (hop : ∀ ramdisk key force image, op ≠ .mount ramdisk key force image) :
    Keeps h s (step h op s) := by
  cases op with
  | mount ramdisk key force image => exact absurd rfl (hop ramdisk key force image)
  | unmount key => exact .unmount key
  | put data =>
    show Keeps h s (s.put data)
    unfold PDBlock3.put
    split <;> exact .of_same rfl rfl rfl rfl
  | execute => exact .execute
  | reset => exact .of_same rfl rfl rfl rfl
  | poke addr data => exact .of_same rfl rfl rfl rfl

theorem Ledger.step (hl : Ledger h s) (op : Op) : Ledger h (step h op s) := by
  cases op with
  | mount ramdisk key force image => exact hl.mount (fun m hm => (mediaList_volume hm).named)
  | _ => exact (Keeps.step (by rintro _ _ _ _ ⟨⟩)).ledger hl

theorem Spread.step {op : Op} (hs : Spread s) (hl : Ledger h s) (hadmits : Admits h s op) :
    Spread (step h op s) := by
  cases op with
  | mount ramdisk key force image => exact hs.mount hl (fun m hm => mediaList_volume hm) hadmits
  | _ => exact (Keeps.step (by rintro _ _ _ _ ⟨⟩)).spread hl hs

theorem run_keeps (hl : Ledger h s) (ops : List Op) :
    Ledger h (run h ops s) ∧ (Spread s → Safe h ops s → Spread (run h ops s)) := by
  induction ops generalizing s with
  | nil => exact ⟨hl, fun hs _ => hs⟩
  | cons op ops ih =>
    obtain ⟨hledger, hspread⟩ := ih (hl.step op)
    exact ⟨hledger, fun hs hsafe => hspread (hs.step hl hsafe.1) hsafe.2⟩

/-- An open file is counted once for each unit that uses it. Where the volumes of each image were sound, no two units
have a byte in common, and no unit a byte outside its file. -/
theorem writers_apart (hf : Fresh s) (ops : List Op) :
    (∀ e ∈ (run h ops s).openFiles, e.refs = users (run h ops s).units e.fp) ∧
      (∀ u, u < maxUnits → ∀ fp, ((run h ops s).units u).file = some fp → ∃ e ∈ (run h ops s).openFiles, e.fp = fp) ∧
      (Safe h ops s → Spread (run h ops s)) := by
  obtain ⟨hledger, hspread⟩ := run_keeps (hf.ledger (h := h)) ops
  exact ⟨hledger.refs, fun u hu fp hfile => hledger.entry hu hfile, hspread hf.spread⟩

end

def oneFile : Host where
  inode := fun name => if name = ['a', '.', 'h', 'd', 'v'] then some 0 else none
  readOnly := fun _ => false
  opens := fun _ _ => true

def unmounted (file : List Byte) : PDBlock3 := { slot := 7, mem := fun _ => 0, disk := fun _ => file }

def mapEntry (start count : Byte) : List Byte :=
  [0x50, 0x4D, 0, 0, 0, 0, 0, 2, 0, 0, 0, start, 0, 0, 0, count] ++ List.replicate 32 0 ++ ascii "Apple_ProDOS" ++
    List.replicate 452 0

def overlapping : List Byte :=
  [0x45, 0x52, 2, 0] ++ List.replicate 508 0 ++ mapEntry 3 2 ++ mapEntry 4 1 ++ List.replicate 1024 0

def mountOne : Op := .mount (fun _ => false) { slot := 7 } false (.file ['a', '.', 'h', 'd', 'v'])

instance (m : Descriptor) (n : Nat) : Decidable (m.Covers n) := inferInstanceAs (Decidable (_ ∧ _))

theorem uses_of_some {s : PDBlock3} {u i n : Nat}
    (hfile : (s.units u).file.any (fun fp => decide (fp.inode = i)) = true)
    (hmedia : (s.units u).media.any (fun m => decide (m.Covers n)) = true) : s.Uses u i n := by
  obtain ⟨fp, hfp, hi⟩ := (Option.any_eq_true _ _).mp hfile
  obtain ⟨m, hm, hn⟩ := (Option.any_eq_true _ _).mp hmedia
  exact ⟨fp, m, hfp, hm, of_decide_eq_true hi, of_decide_eq_true hn⟩

/-- Two units have the last block in common. -/
theorem partitions_overlap : ¬Spread (run oneFile [mountOne] (unmounted overlapping)) := by
  intro hs
  have hboth : (([0, 1] : List Nat).all fun u =>
      ((run oneFile [mountOne] (unmounted overlapping)).units u).file.any (fun fp => decide (fp.inode = 0)) &&
        ((run oneFile [mountOne] (unmounted overlapping)).units u).media.any (fun m => decide (m.Covers 2048))) = true := by
    decide +kernel
  have huses : ∀ u ∈ ([0, 1] : List Nat), (run oneFile [mountOne] (unmounted overlapping)).Uses u 0 2048 := by
    intro u hu
    obtain ⟨hfile, hmedia⟩ := Bool.and_eq_true_iff.mp (List.all_eq_true.mp hboth u hu)
    exact uses_of_some hfile hmedia
  exact hs.apart 0 1 (by decide) (by decide) (by decide) 0 2048 (huses 0 (by decide)) (huses 1 (by decide))

theorem writers_apart_one :
    Spread (run oneFile [mountOne] (unmounted (List.replicate 1024 7))) ∧
      (run oneFile [mountOne] (unmounted (List.replicate 1024 7))).Uses 0 0 1023 := by
  have hfresh : Fresh (unmounted (List.replicate 1024 7)) := ⟨fun _ => ⟨rfl, rfl⟩, rfl⟩
  refine ⟨(writers_apart (h := oneFile) hfresh [mountOne]).2.2 ⟨fun _ => ⟨?_, ?_⟩, trivial⟩, ?_⟩
  · have hlist : (mediaList oneFile (unmounted (List.replicate 1024 7)).disk false (.file ['a', '.', 'h', 'd', 'v'])).length =
        1 := by decide +kernel
    obtain ⟨m, hm⟩ := List.length_eq_one_iff.mp hlist
    rw [hm]
    exact List.pairwise_singleton _ _
  · intro m _ i _
    show (List.replicate 1024 (7 : Byte)).length % 2 ^ 32 < 2 ^ 31
    rw [List.length_replicate]
    decide
  · exact uses_of_some (by decide +kernel) (by decide +kernel)

end PDBlock3

end GSSquared.Block
