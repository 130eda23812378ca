/-
A block volume is an array. A unit reads from its copy in RAM, if it has one, and otherwise from its
file.
-/
import GSSquared.Lib.Overlay
import GSSquared.Block.Eject

set_option linter.all false

namespace GSSquared.Block

open Bits Wire Overlay

namespace PDBlock3

/-! ## Runs of mounts and blocks -/

inductive Call where
  | mount (ramdisk : Descriptor → Bool) (key : Key) (forceWriteProtected : Bool) (image : Image)
  | unmount (key : Key)
  /-- The guest's memory changes. -/
  | poke (addr : Nat) (data : Byte)
  | read (u block addr : Nat)
  | write (u block addr : Nat)
  | format (u : Nat)

def call (h : Host) : Call → PDBlock3 → PDBlock3
  | .mount ramdisk key force image, s => s.mountMedia h ramdisk key force image
  | .unmount key, s => s.unmount key
  | .poke addr data, s => { s with mem := storeBytes addr [data] s.mem }
  | .read u block addr, s => s.readBlock u block addr
  | .write u block addr, s => s.writeBlock u block addr
  | .format u, s => s.formatDevice u

/-! ## The array -/

abbrev Store := Nat → Nat → List Byte

def accepts (s : PDBlock3) (u block : Nat) : Bool :=
  match s.online u with
  | .ok (_, m) => m.blockSize ≠ 0 && m.blockSize ≤ 512 && block < m.blockCount && !m.writeProtected
  | .error _ => false

def imageBlock (s : PDBlock3) (u block : Nat) : List Byte :=
  match (s.units u).file, (s.units u).media with
  | some fp, some m => span 0 (s.disk fp.inode) (m.dataOffset + block * m.blockSize) m.blockSize
  | _, _ => []

/-- What a call does to the array: `s` is the state before it and `t` the state after it. -/
def record (c : Call) (s t : PDBlock3) (st : Store) : Store :=
  match c with
  | .mount .. => fun u => if (s.units u).file = none then t.imageBlock u else st u
  | .write u block addr => fun v b => if v = u ∧ b = block ∧ s.accepts u b then s.memoryBytes addr 512 else st v b
  | .format u => fun v b => if v = u ∧ s.accepts u b then List.replicate 512 0 else st v b
  | _ => st

def finish (h : Host) : List Call → PDBlock3 × Store → PDBlock3 × Store
  | [], p => p
  | c :: cs, p => finish h cs (call h c p.1, record c p.1 (call h c p.1) p.2)

structure Faithful (s : PDBlock3) (st : Store) : Prop where
  read : ∀ u fp m, s.online u = .ok (fp, m) → ∀ b, b < m.blockCount → ∀ addr,
    s.readBlock u b addr = s.writeToMemory addr (st u b)
  host : ∀ u, (s.units u).ram ≠ [] →
    (∀ b addr, (s.writeBlock u b addr).disk = s.disk) ∧ (s.formatDevice u).disk = s.disk
  indices : ∀ u fp m, s.online u = .ok (fp, m) → (s.units u).ram ≠ [] → ∀ b, b < m.blockCount →
    m.dataOffset + b * m.blockSize + m.blockSize ≤ (s.units u).ram.length ∧ b < (s.units u).dirty.length

/-! ## Which runs -/

def freeList (s : PDBlock3) : List Nat := (List.range maxUnits).filter (fun u => (s.units u).file = none)

/-- The volume is loaded into RAM: it has a size, of 256 MB at most, and its file is not empty. -/
def Loads (h : Host) (s : PDBlock3) (m : Descriptor) : Prop :=
  0 < m.dataOffset + m.blockCount * m.blockSize ∧
    m.dataOffset + m.blockCount * m.blockSize ≤ 256 * 1024 * 1024 ∧
    ∀ i, h.inode m.filename = some i → s.disk i ≠ []

/-- Where a volume goes, no copy is left from before, or the volume is loaded over it. -/
def Clean (h : Host) (ramdisk : Descriptor → Bool) (media : List Descriptor) (s : PDBlock3) : Prop :=
  ∀ p ∈ media.zip s.freeList, (s.units p.2).ram = [] ∨ ramdisk p.1 = true ∧ Loads h s p.1

def Suits (h : Host) (s : PDBlock3) : Call → Prop
  | .mount ramdisk key force image =>
    Mountable h key (mediaList h s.disk force image) s →
      Sound h (mediaList h s.disk force image) s ∧ Clean h ramdisk (mediaList h s.disk force image) s
  | _ => True

def Suited (h : Host) : List Call → PDBlock3 → Prop
  | [], _ => True
  | c :: cs, s => Suits h s c ∧ Suited h cs (call h c s)

/-! ## Lists of bytes -/

theorem over_storeRam {ram bs : List Byte} {off : Nat} (hin : off + bs.length ≤ ram.length) :
    Over 0 ram (storeRam ram off bs) off bs := by
  intro j
  by_cases hj : j < ram.length
  · unfold storeRam
    rw [List.getD_eq_getElem?_getD, List.getElem?_map, List.getElem?_range hj]
    rfl
  · rw [if_neg (by omega), List.getD_eq_getElem?_getD, List.getElem?_eq_none, List.getD_eq_getElem?_getD,
      List.getElem?_eq_none (by omega)]
    rw [storeRam, List.length_map, List.length_range]
    omega

theorem storeRam_length (ram bs : List Byte) (off : Nat) : (storeRam ram off bs).length = ram.length := by
  rw [storeRam, List.length_map, List.length_range]

theorem over_writeAt {file bs : List Byte} {off : Nat} (hin : off + bs.length ≤ file.length) :
    Over 0 file (writeAt file off bs) off bs := by
  intro j
  have hfront : (file.take off ++ List.replicate (off - file.length) (0 : Byte)).length = off := by
    rw [List.length_append, List.length_take, List.length_replicate]
    omega
  have hgap : off - file.length = 0 := by omega
  unfold writeAt
  rw [List.getD_eq_getElem?_getD]
  by_cases hlow : off ≤ j
  · by_cases hmid : j < off + bs.length
    · rw [if_pos ⟨hlow, hmid⟩, List.getElem?_append_left (by rw [List.length_append, hfront]; omega),
        List.getElem?_append_right (by omega), hfront, ← List.getD_eq_getElem?_getD]
    · rw [if_neg (by omega), List.getElem?_append_right (by rw [List.length_append, hfront]; omega), List.length_append,
        hfront, List.getElem?_drop, show off + bs.length + (j - (off + bs.length)) = j by omega,
        ← List.getD_eq_getElem?_getD]
  · rw [if_neg (by omega), List.getElem?_append_left (by rw [List.length_append, hfront]; omega),
      List.getElem?_append_left (by omega), hgap, List.replicate_zero, List.append_nil,
      List.getElem?_take_of_lt (by omega), ← List.getD_eq_getElem?_getD]

/-! ## What a unit reads from -/

/-- The unit has that file and that volume. -/
def Has (s : PDBlock3) (u : Nat) (fp : Handle) (m : Descriptor) : Prop :=
  u < maxUnits ∧ (s.units u).file = some fp ∧ (s.units u).media = some m

/-- Its copy in RAM, or its file. -/
def source (s : PDBlock3) (u : Nat) (fp : Handle) : List Byte :=
  if (s.units u).ram = [] then s.disk fp.inode else (s.units u).ram

structure Stands (s : PDBlock3) (st : Store) : Prop where
  block : ∀ u fp m, s.Has u fp m → ∀ b, b < m.blockCount →
    span 0 (s.source u fp) (m.dataOffset + b * m.blockSize) m.blockSize = st u b
  copy : ∀ u fp m, s.Has u fp m → (s.units u).ram ≠ [] →
    (s.units u).ram.length = m.dataOffset + m.blockCount * m.blockSize ∧ m.blockCount ≤ (s.units u).dirty.length
  granted : ∀ u fp m, s.Has u fp m → fp.writable = !m.writeProtected

section

variable {h : Host} {s t : PDBlock3} {u w : Nat} {fp fp' : Handle} {m m' : Descriptor} {st st' : Store}

theorem online_iff : s.online u = .ok (fp, m) ↔ s.Has u fp m := by
  constructor
  · exact online_ok
  · rintro ⟨hu, hfile, hmedia⟩
    unfold online
    rw [if_neg (Nat.not_le.mpr hu), hfile, hmedia]

theorem Has.unique (ha : s.Has u fp m) (hb : s.Has u fp' m') : fp = fp' ∧ m = m' :=
  ⟨Option.some.inj (ha.2.1.symm.trans hb.2.1), Option.some.inj (ha.2.2.symm.trans hb.2.2)⟩

theorem Has.size (hl : Ledger h s) (ha : s.Has u fp m) : m.blockSize = 512 := (hl.blocks u ha.1 m ha.2.2).1

theorem Has.inside (hl : Ledger h s) (hs : Spread s) (ha : s.Has u fp m) {b : Nat} (hb : b < m.blockCount) :
    m.dataOffset + b * m.blockSize + m.blockSize ≤ (s.disk fp.inode).length := by
  have hend := block_end hb
  have hsize := ha.size hl
  have hlast := hs.inside u ha.1 fp.inode (m.dataOffset + b * m.blockSize + m.blockSize - 1)
    ⟨fp, m, ha.2.1, ha.2.2, rfl, by omega, by omega⟩
  omega

theorem Stands.of_same (hst : Stands s st) (hunits : t.units = s.units) (hdisk : t.disk = s.disk) : Stands t st := by
  have hhas : ∀ u fp m, t.Has u fp m → s.Has u fp m := by
    intro u fp m ha
    unfold Has at ha ⊢
    rwa [hunits] at ha
  refine ⟨fun u fp m ha => ?_, fun u fp m ha => ?_, fun u fp m ha => hst.granted u fp m (hhas u fp m ha)⟩
  · have hsource : t.source u fp = s.source u fp := by
      unfold source
      rw [hunits, hdisk]
    rw [hsource]
    exact hst.block u fp m (hhas u fp m ha)
  · rw [hunits]
    exact hst.copy u fp m (hhas u fp m ha)

structure Changed (u : Nat) (off : Nat) (bs : List Byte) (s t : PDBlock3) : Prop where
  has : ∀ w fp m, t.Has w fp m → s.Has w fp m
  covers : ∀ fp m, s.Has u fp m → Over 0 (s.source u fp) (t.source u fp) off bs
  copy : (t.units u).ram.length = (s.units u).ram.length ∧ (t.units u).dirty.length = (s.units u).dirty.length
  others : ∀ w fp m, w ≠ u → s.Has w fp m →
    (t.units w).ram = (s.units w).ram ∧ (t.units w).dirty = (s.units w).dirty ∧
      ∀ b, b < m.blockCount → span 0 (t.source w fp) (m.dataOffset + b * m.blockSize) m.blockSize =
        span 0 (s.source w fp) (m.dataOffset + b * m.blockSize) m.blockSize

theorem Stands.changed {off : Nat} {bs : List Byte} (hst : Stands s st) (hc : Changed u off bs s t)
    (hown : ∀ fp m, s.Has u fp m → ∀ b, b < m.blockCount →
      span 0 (t.source u fp) (m.dataOffset + b * m.blockSize) m.blockSize = st' u b)
    (hrest : ∀ w, w ≠ u → st' w = st w) : Stands t st' := by
  refine ⟨fun w fp m ha b hb => ?_, fun w fp m ha hram => ?_, fun w fp m ha => hst.granted w fp m (hc.has w fp m ha)⟩
  · have ha := hc.has w fp m ha
    by_cases hw : w = u
    · cases hw
      exact hown fp m ha b hb
    · rw [(hc.others w fp m hw ha).2.2 b hb, hrest w hw]
      exact hst.block w fp m ha b hb
  · have ha := hc.has w fp m ha
    by_cases hw : w = u
    · cases hw
      rw [hc.copy.1, hc.copy.2]
      refine hst.copy u fp m ha (fun hnil => hram ?_)
      rw [← List.length_eq_zero_iff, hc.copy.1, hnil, List.length_nil]
    · obtain ⟨hramw, hdirty, _⟩ := hc.others w fp m hw ha
      rw [hramw] at hram ⊢
      rw [hdirty]
      exact hst.copy w fp m ha hram

/-! ## Writing -/

theorem changed_ram {off : Nat} {bs : List Byte} {dirty : List Bool} (hram : (s.units u).ram ≠ [])
    (hin : off + bs.length ≤ (s.units u).ram.length) (hdirty : dirty.length = (s.units u).dirty.length) :
    Changed u off bs s
      (s.setUnit u { s.units u with ram := storeRam (s.units u).ram off bs, dirty := dirty }) := by
  have hnil : storeRam (s.units u).ram off bs ≠ [] := by
    intro hnil
    rw [← List.length_eq_zero_iff, storeRam_length, List.length_eq_zero_iff] at hnil
    exact hram hnil
  refine ⟨fun w fp m ha => ?_, fun fp m _ => ?_, ?_, fun w fp m hw _ => ?_⟩
  · unfold Has at ha ⊢
    by_cases hw : w = u
    · rw [hw, setUnit_self] at ha
      rw [hw]
      exact ha
    · rwa [setUnit_ne hw] at ha
  · unfold source
    rw [setUnit_self, if_neg hram, if_neg hnil]
    exact over_storeRam hin
  · rw [setUnit_self]
    exact ⟨storeRam_length _ _ _, hdirty⟩
  · rw [setUnit_ne hw]
    refine ⟨rfl, rfl, fun b _ => ?_⟩
    unfold source
    rw [setUnit_ne hw]
    rfl

theorem file_apart {off b : Nat} {bs : List Byte} (hs : Spread s) (ha : s.Has u fp m)
    (hdisk : ∀ i, Over 0 (s.disk i) (t.disk i) off (if i = fp.inode then bs else []))
    (hown : ∀ j, off ≤ j → j < off + bs.length → m.Covers j) (hw : w ≠ u) (ha' : s.Has w fp' m') (hb : b < m'.blockCount) :
    span 0 (t.disk fp'.inode) (m'.dataOffset + b * m'.blockSize) m'.blockSize =
      span 0 (s.disk fp'.inode) (m'.dataOffset + b * m'.blockSize) m'.blockSize := by
  refine (hdisk fp'.inode).apart (fun j hlow hhigh hj => ?_)
  by_cases hi : fp'.inode = fp.inode
  · rw [if_pos hi] at hj
    have hend := block_end hb
    exact hs.apart u w ha.1 ha'.1 (Ne.symm hw) fp.inode j ⟨fp, m, ha.2.1, ha.2.2, rfl, hown j hj.1 hj.2⟩
      ⟨fp', m', ha'.2.1, ha'.2.2, hi, by omega, by omega⟩
  · rw [if_neg hi, List.length_nil] at hj
    omega

theorem changed_file {off : Nat} {bs : List Byte} (hs : Spread s) (ha : s.Has u fp m) (hram : (s.units u).ram = [])
    (hunits : t.units = s.units)
    (hdisk : ∀ i, Over 0 (s.disk i) (t.disk i) off (if i = fp.inode then bs else []))
    (hown : ∀ j, off ≤ j → j < off + bs.length → m.Covers j) : Changed u off bs s t := by
  have hhas : ∀ w fp m, t.Has w fp m → s.Has w fp m := by
    intro w fp m ha
    unfold Has at ha ⊢
    rwa [hunits] at ha
  refine ⟨hhas, fun fp' m' ha' => ?_, ?_, fun w fp' m' hw ha' => ?_⟩
  · cases (ha.unique ha').1
    have hover := hdisk fp.inode
    rw [if_pos rfl] at hover
    unfold source
    rw [hunits, if_pos hram, if_pos hram]
    exact hover
  · rw [hunits]
    exact ⟨rfl, rfl⟩
  · rw [hunits]
    refine ⟨rfl, rfl, fun b hb => ?_⟩
    unfold source
    rw [hunits]
    split
    · exact file_apart hs ha hdisk hown hw ha' hb
    · rfl

theorem accepts_iff {b : Nat} (ha : s.Has u fp m) (hl : Ledger h s) :
    s.accepts u b = true ↔ b < m.blockCount ∧ m.writeProtected = false := by
  unfold accepts
  rw [online_iff.mpr ha]
  simp [ha.size hl]

theorem accepts_has {b : Nat} (hacc : s.accepts u b = true) : ∃ fp m, s.Has u fp m := by
  unfold accepts at hacc
  cases hon : s.online u with
  | ok p => exact ⟨p.1, p.2, online_iff.mp hon⟩
  | error e =>
    rw [hon] at hacc
    cases hacc

theorem writeBlock_refused {b : Nat} (addr : Nat) (hacc : s.accepts u b = false) : ∃ e, s.writeBlock u b addr = s.fail e := by
  unfold accepts at hacc
  unfold writeBlock
  cases hon : s.online u with
  | error e => exact ⟨e, rfl⟩
  | ok p =>
    obtain ⟨fp, m⟩ := p
    rw [hon] at hacc
    dsimp only at hacc ⊢
    split
    · exact ⟨_, rfl⟩
    next hsize =>
    split
    · exact ⟨_, rfl⟩
    next hblock =>
    split
    · exact ⟨_, rfl⟩
    next hprot =>
    exfalso
    simp only [not_or, Nat.not_lt, Nat.not_le, Bool.not_eq_true] at hsize hblock hprot
    simp [hsize.1, hsize.2, hblock, hprot] at hacc

theorem writeBlock_accepted {b addr : Nat} (hl : Ledger h s) (ha : s.Has u fp m) (hacc : s.accepts u b = true) :
    s.writeBlock u b addr =
      if (s.units u).ram ≠ [] then
        s.setUnit u { s.units u with
          ram := storeRam (s.units u).ram (m.dataOffset + b * m.blockSize) (s.memoryBytes addr m.blockSize)
          dirty := (s.units u).dirty.set b true }
      else s.storeFile fp (m.dataOffset + b * m.blockSize) (s.memoryBytes addr m.blockSize) := by
  obtain ⟨hb, hprot⟩ := (accepts_iff ha hl).mp hacc
  have hsize := ha.size hl
  unfold writeBlock
  rw [online_iff.mpr ha]
  dsimp only
  rw [if_neg (by omega), if_neg (by omega), if_neg (by rw [hprot]; exact Bool.false_ne_true)]

theorem Stands.put {b : Nat} {data : List Byte} (hst : Stands s st) (hl : Ledger h s) (ha : s.Has u fp m)
    (hlen : data.length = m.blockSize) (hc : Changed u (m.dataOffset + b * m.blockSize) data s t)
    (hst' : ∀ v c, st' v c = if v = u ∧ c = b then data else st v c) : Stands t st' := by
  have hsize := ha.size hl
  refine hst.changed hc (fun fp' m' ha' c hcount => ?_) (fun w hw => ?_)
  · obtain ⟨rfl, rfl⟩ := ha.unique ha'
    have hover := hc.covers fp m ha
    rw [hst']
    by_cases hcb : c = b
    · have hself := hover.self
      rw [hlen] at hself
      rw [if_pos ⟨rfl, hcb⟩, hcb]
      exact hself
    · rw [if_neg (fun h => hcb h.2), ← hst.block u fp m ha c hcount]
      refine hover.apart (fun j hlow hhigh hj => hcb ?_)
      rw [hlen, hsize] at hj
      rw [hsize] at hlow hhigh
      omega
  · funext c
    rw [hst', if_neg (fun h => hw h.1)]

theorem Stands.blank (hst : Stands s st) (hl : Ledger h s) (ha : s.Has u fp m)
    (hc : Changed u m.dataOffset (List.replicate (m.blockCount * m.blockSize) 0) s t)
    (hown : ∀ b, b < m.blockCount → st' u b = List.replicate 512 0) (hrest : ∀ w, w ≠ u → st' w = st w) : Stands t st' := by
  have hsize := ha.size hl
  refine hst.changed hc (fun fp' m' ha' b hb => ?_) hrest
  obtain ⟨rfl, rfl⟩ := ha.unique ha'
  have hend := block_end hb
  rw [(hc.covers fp m ha).within (Nat.le_add_right _ _) (by rw [List.length_replicate]; exact hend), span_replicate,
    hown b hb, hsize]

theorem storeFile_disk {off : Nat} {bs : List Byte} (hwritable : fp.writable = true)
    (hin : off + bs.length ≤ (s.disk fp.inode).length) (i : Nat) :
    Over 0 (s.disk i) ((s.storeFile fp off bs).disk i) off (if i = fp.inode then bs else []) := by
  unfold storeFile
  rw [if_pos hwritable]
  by_cases hi : i = fp.inode
  · rw [if_pos hi]
    show Over 0 (s.disk i) (if i = fp.inode then _ else _) off bs
    rw [if_pos hi]
    exact over_writeAt (hi ▸ hin)
  · rw [if_neg hi]
    show Over 0 (s.disk i) (if i = fp.inode then _ else _) off []
    rw [if_neg hi]
    exact .nil _ _

theorem Stands.write {b addr : Nat} (hst : Stands s st) (hl : Ledger h s) (hs : Spread s) :
    Stands (s.writeBlock u b addr) (record (.write u b addr) s (s.writeBlock u b addr) st) := by
  cases hacc : s.accepts u b with
  | false =>
    obtain ⟨e, he⟩ := writeBlock_refused addr hacc
    have hrecord : record (.write u b addr) s (s.writeBlock u b addr) st = st := by
      funext v c
      refine if_neg ?_
      rintro ⟨rfl, rfl, h⟩
      rw [hacc] at h
      cases h
    rw [hrecord, he]
    exact hst.of_same rfl rfl
  | true =>
    obtain ⟨fp, m, ha⟩ := accepts_has hacc
    obtain ⟨hb, hprot⟩ := (accepts_iff ha hl).mp hacc
    have hsize := ha.size hl
    have hend := block_end hb
    have hlen := memoryBytes_length s addr m.blockSize
    have hrecord : ∀ v c, record (.write u b addr) s (s.writeBlock u b addr) st v c =
        if v = u ∧ c = b then s.memoryBytes addr m.blockSize else st v c := by
      intro v c
      rw [hsize]
      refine if_congr ⟨fun h => ⟨h.1, h.2.1⟩, fun h => ⟨h.1, h.2, ?_⟩⟩ rfl rfl
      rw [h.2]
      exact hacc
    refine hst.put (b := b) hl ha hlen ?_ hrecord
    rw [writeBlock_accepted hl ha hacc]
    by_cases hram : (s.units u).ram = []
    · rw [if_neg (not_not.mpr hram)]
      refine changed_file hs ha hram (storeFile_units _ _ _ _) ?_ (fun j hlow hhigh => ?_)
      · exact storeFile_disk (by rw [hst.granted u fp m ha, hprot]; rfl) (by rw [hlen]; exact ha.inside hl hs hb)
      · rw [hlen] at hhigh
        exact ⟨by omega, by omega⟩
    · rw [if_pos hram]
      refine changed_ram hram ?_ (by rw [List.length_set])
      rw [hlen, (hst.copy u fp m ha hram).1]
      exact hend

/-! ## Formatting -/

theorem zeroBlocks_units (fp : Handle) (m : Descriptor) (n block : Nat) (s : PDBlock3) :
    (s.zeroBlocks fp m block n).units = s.units := by
  induction n generalizing block s with
  | zero => rfl
  | succ n ih => rw [zeroBlocks, ih, storeFile_units]

theorem zeroBlocks_disk (hwritable : fp.writable = true) (n block : Nat) (s : PDBlock3)
    (hin : 0 < n → m.dataOffset + (block + n) * m.blockSize ≤ (s.disk fp.inode).length) (i : Nat) :
    Over 0 (s.disk i) ((s.zeroBlocks fp m block n).disk i) (m.dataOffset + block * m.blockSize)
      (if i = fp.inode then List.replicate (n * m.blockSize) 0 else []) := by
  induction n generalizing block s with
  | zero =>
    rw [Nat.zero_mul, List.replicate_zero, ite_self]
    exact .nil _ _
  | succ n ih =>
    have hin := hin (Nat.succ_pos n)
    have hnext : (block + 1) * m.blockSize = block * m.blockSize + m.blockSize := Nat.succ_mul _ _
    have hlast : (block + (n + 1)) * m.blockSize = (block + 1 + n) * m.blockSize := by rw [Nat.add_comm n, Nat.add_assoc]
    have hmul : (block + 1) * m.blockSize ≤ (block + 1 + n) * m.blockSize :=
      Nat.mul_le_mul_right _ (Nat.le_add_right _ n)
    have hroom : m.dataOffset + block * m.blockSize + (List.replicate m.blockSize (0 : Byte)).length ≤
        (s.disk fp.inode).length := by
      rw [List.length_replicate]
      omega
    have hone := storeFile_disk hwritable hroom
    have hlen : ((s.storeFile fp (m.dataOffset + block * m.blockSize) (List.replicate m.blockSize 0)).disk
        fp.inode).length = (s.disk fp.inode).length := by
      unfold storeFile
      rw [if_pos hwritable]
      show (if fp.inode = fp.inode then _ else _ : List Byte).length = _
      rw [if_pos rfl]
      exact writeAt_length (by rw [List.length_replicate]; omega)
    have hrest := ih (block + 1) (s.storeFile fp (m.dataOffset + block * m.blockSize) (List.replicate m.blockSize 0))
      (fun _ => by rw [hlen, ← hlast]; exact hin)
    rw [zeroBlocks]
    have hfirst := hone i
    by_cases hi : i = fp.inode
    · rw [if_pos hi] at hfirst hrest ⊢
      rw [hnext, ← Nat.add_assoc] at hrest
      have hboth := hfirst.append (by rw [List.length_replicate]; exact hrest)
      rw [List.replicate_append_replicate] at hboth
      rw [Nat.succ_mul, Nat.add_comm (n * m.blockSize)]
      exact hboth
    · rw [if_neg hi] at hfirst hrest ⊢
      intro j
      rw [hrest j, if_neg (by rw [List.length_nil]; omega), hfirst j]

theorem formatDevice_refused (hnone : ∀ fp m, s.Has u fp m → m.writeProtected = true) (hl : Ledger h s) :
    ∃ e, s.formatDevice u = s.fail e := by
  unfold formatDevice
  cases hon : s.online u with
  | error e => exact ⟨e, rfl⟩
  | ok p =>
    obtain ⟨fp, m⟩ := p
    have ha := online_iff.mp hon
    have hsize := ha.size hl
    dsimp only
    rw [if_neg (by omega), if_pos (hnone fp m ha)]
    exact ⟨_, rfl⟩

theorem formatDevice_accepted (hl : Ledger h s) (ha : s.Has u fp m) (hprot : m.writeProtected = false)
    (hwritable : fp.writable = true) :
    s.formatDevice u =
      if (s.units u).ram ≠ [] then
        (s.setUnit u { s.units u with
          ram := storeRam (s.units u).ram m.dataOffset (List.replicate (m.blockCount * m.blockSize) 0)
          dirty := (s.units u).dirty.map (fun _ => true) }).fail 0
      else (zeroBlocks fp m 0 m.blockCount s).fail 0 := by
  have hsize := ha.size hl
  unfold formatDevice
  rw [online_iff.mpr ha]
  dsimp only
  rw [if_neg (by omega), if_neg (by rw [hprot]; exact Bool.false_ne_true), hwritable]
  rfl

theorem formatted_file (hl : Ledger h s) (hs : Spread s) (ha : s.Has u fp m) (hwritable : fp.writable = true) (i : Nat) :
    Over 0 (s.disk i) ((s.zeroBlocks fp m 0 m.blockCount).disk i) m.dataOffset
      (if i = fp.inode then List.replicate (m.blockCount * m.blockSize) 0 else []) := by
  have hsize := ha.size hl
  have hin : 0 < m.blockCount → m.dataOffset + (0 + m.blockCount) * m.blockSize ≤ (s.disk fp.inode).length := by
    intro hpos
    have hlast := ha.inside hl hs (Nat.sub_lt hpos Nat.one_pos)
    rw [hsize] at hlast ⊢
    omega
  have hdisk := zeroBlocks_disk (m := m) hwritable m.blockCount 0 s hin i
  rwa [Nat.zero_mul, Nat.add_zero] at hdisk

theorem Stands.format (hst : Stands s st) (hl : Ledger h s) (hs : Spread s) :
    Stands (s.formatDevice u) (record (.format u) s (s.formatDevice u) st) := by
  have hothers : ∀ v, v ≠ u → record (.format u) s (s.formatDevice u) st v = st v := by
    intro v hv
    funext b
    exact if_neg (fun h => hv h.1)
  by_cases hfree : ∃ fp m, s.Has u fp m ∧ m.writeProtected = false
  · obtain ⟨fp, m, ha, hprot⟩ := hfree
    have hwritable : fp.writable = true := by
      rw [hst.granted u fp m ha, hprot]
      rfl
    have hown : ∀ b, b < m.blockCount → record (.format u) s (s.formatDevice u) st u b = List.replicate 512 0 :=
      fun b hb => if_pos ⟨rfl, (accepts_iff ha hl).mpr ⟨hb, hprot⟩⟩
    refine hst.blank hl ha ?_ hown hothers
    rw [formatDevice_accepted hl ha hprot hwritable]
    by_cases hram : (s.units u).ram = []
    · rw [if_neg (not_not.mpr hram)]
      refine changed_file hs ha hram (zeroBlocks_units fp m _ _ s) (formatted_file hl hs ha hwritable)
        (fun j hlow hhigh => ?_)
      rw [List.length_replicate] at hhigh
      exact ⟨hlow, hhigh⟩
    · rw [if_pos hram]
      have hroom : m.dataOffset + (List.replicate (m.blockCount * m.blockSize) (0 : Byte)).length ≤
          (s.units u).ram.length :=
        Nat.le_of_eq (by rw [List.length_replicate, (hst.copy u fp m ha hram).1])
      have hmarks : ((s.units u).dirty.map (fun _ => true)).length = (s.units u).dirty.length := List.length_map _
      have hc := changed_ram hram hroom hmarks
      exact ⟨hc.has, hc.covers, hc.copy, hc.others⟩
  · have hnone : ∀ fp m, s.Has u fp m → m.writeProtected = true := by
      intro fp m ha
      by_contra hprot
      exact hfree ⟨fp, m, ha, Bool.not_eq_true _ ▸ hprot⟩
    obtain ⟨e, he⟩ := formatDevice_refused hnone hl
    have hrecord : record (.format u) s (s.formatDevice u) st = st := by
      funext v b
      refine if_neg ?_
      rintro ⟨rfl, hacc⟩
      obtain ⟨fp, m, ha⟩ := accepts_has hacc
      have hprot := ((accepts_iff ha hl).mp hacc).2
      rw [hnone fp m ha] at hprot
      cases hprot
    rw [hrecord, he]
    exact hst.of_same rfl rfl

/-! ## Unmounting and mounting -/

theorem unmount_has {key : Key} (ha : (s.unmount key).Has w fp m) :
    (s.unmount key).units w = s.units w ∧ s.Has w fp m := by
  have hsame : (s.unmount key).units w = s.units w := by
    by_cases hdrive : key.drive < maxDevices
    · have hfile := ha.2.1
      rw [unmount_units _ hdrive s ha.1] at hfile ⊢
      split at hfile
      · cases hfile
      · next hne => rw [if_neg hne]
    · unfold PDBlock3.unmount
      rw [if_pos (Nat.le_of_not_lt hdrive)]
  unfold Has at ha ⊢
  rw [hsame] at ha
  exact ⟨hsame, ha⟩

theorem Stands.unmount (hst : Stands s st) (key : Key) : Stands (s.unmount key) st := by
  refine ⟨fun w fp m ha => ?_, fun w fp m ha => ?_, fun w fp m ha => hst.granted w fp m (unmount_has ha).2⟩
  · obtain ⟨hsame, ha⟩ := unmount_has ha
    have hsource : (s.unmount key).source w fp = s.source w fp := by
      unfold source
      rw [hsame, unmount_disk key s]
    rw [hsource]
    exact hst.block w fp m ha
  · obtain ⟨hsame, ha⟩ := unmount_has ha
    rw [hsame]
    exact hst.copy w fp m ha

def placed (ramdisk : Descriptor → Bool) (key : Key) (fp : Handle) (m : Descriptor) (v : Volume) (s : PDBlock3) : Volume :=
  let v := { v with file := some fp, media := some m, key := key, switched := true }
  if ramdisk m then s.loadRam v else v

/-- Volumes put in the first units that were free, one after another. -/
inductive Placed (h : Host) (ramdisk : Descriptor → Bool) (key : Key) :
    List Nat → List Descriptor → PDBlock3 → PDBlock3 → Prop where
  | nil (s : PDBlock3) : Placed h ramdisk key [] [] s s
  | cons {u : Nat} {us : List Nat} {m : Descriptor} {ms : List Descriptor} {s q t : PDBlock3} {fp : Handle}
      (hu : u < maxUnits) (hfree : (s.units u).file = none) (hfirst : ∀ w, w < u → (s.units w).file ≠ none)
      (hacq : s.acquireFile h m.filename m.writeProtected = some (fp, q))
      (hrest : Placed h ramdisk key us ms (q.setUnit u (q.placed ramdisk key fp m (q.units u))) t) :
      Placed h ramdisk key (u :: us) (m :: ms) s t

theorem unusedUnit_first (s : PDBlock3) (n : Nat) :
    ∀ w, maxUnits - n ≤ w → w < s.unusedUnit n → w < maxUnits → (s.units w).file ≠ none := by
  induction n with
  | zero =>
    intro w hlow _ hw
    omega
  | succ n ih =>
    intro w hlow hhigh hw
    unfold unusedUnit at hhigh
    split at hhigh
    · omega
    · next hused =>
      by_cases heq : w = maxUnits - (n + 1)
      · rw [heq]
        exact hused
      · exact ih w (by omega) hhigh hw

section

variable {ramdisk : Descriptor → Bool} {key : Key} {us : List Nat} {ms : List Descriptor}

variable (fp m ramdisk key) in
theorem placed_file (v : Volume) (s : PDBlock3) :
    (s.placed ramdisk key fp m v).file = some fp ∧ (s.placed ramdisk key fp m v).media = some m := by
  unfold placed
  split
  · exact loadRam_file _ _
  · exact ⟨rfl, rfl⟩

theorem mountLoop_placed {first : Nat} {assigned : List Nat}
    (hrun : mountLoop h ramdisk key ms first assigned s = (true, t)) (hfirst : ∀ w, w < first → (s.units w).file ≠ none) :
    ∃ us, Placed h ramdisk key us ms s t := by
  induction ms generalizing first assigned s with
  | nil =>
    cases hrun
    exact ⟨[], .nil _⟩
  | cons m ms ih =>
    rw [mountLoop] at hrun
    split at hrun
    · cases hrun
    rename_i hroom
    obtain ⟨hu, hfree⟩ := unusedUnit_spec s _ hroom
    have hbefore : ∀ w, w < s.unusedUnit (maxUnits - first) → (s.units w).file ≠ none := by
      intro w hw
      by_cases hlow : w < first
      · exact hfirst w hlow
      · exact unusedUnit_first s _ w (by omega) hw (by omega)
    split at hrun
    · cases hrun
    rename_i fp q hacq
    have hsame := acquireFile_same hacq
    obtain ⟨us, hplaced⟩ := ih hrun (fun w hw => by
      rw [setUnit_ne (Nat.ne_of_lt hw), hsame.1]
      exact hbefore w hw)
    exact ⟨_ :: us, .cons hu hfree hbefore hacq hplaced⟩

theorem Placed.mounted (hp : Placed h ramdisk key us ms s t) : Mounted h us ms s t := by
  induction hp with
  | nil s => exact .nil s
  | cons hu hfree hfirst hacq hrest ih =>
    exact .cons hu hfree hacq (placed_file _ _ _ _ _ _).1 (placed_file _ _ _ _ _ _).2 ih

theorem freeList_cons (hu : u < maxUnits) (hfree : (s.units u).file = none)
    (hfirst : ∀ w, w < u → (s.units w).file ≠ none) {v : Volume} (hv : v.file ≠ none) :
    s.freeList = u :: (s.setUnit u v).freeList := by
  have hrange : List.range maxUnits = List.range u ++ u :: (List.range (maxUnits - (u + 1))).map (fun i => u + 1 + i) := by
    have hsplit : maxUnits = (u + 1) + (maxUnits - (u + 1)) := by omega
    rw [hsplit, List.range_add, List.range_succ, List.append_assoc]
    simp
  have hlow : ∀ p : Nat → Bool, (∀ w, w < u → p w = false) → (List.range u).filter p = [] := by
    intro p hp
    rw [List.filter_eq_nil_iff]
    intro w hw
    rw [hp w (List.mem_range.mp hw)]
    exact Bool.false_ne_true
  unfold freeList
  rw [hrange, List.filter_append, List.filter_append, hlow, hlow, List.nil_append, List.nil_append,
    List.filter_cons_of_pos (by simpa using hfree), List.filter_cons_of_neg (by rw [setUnit_self]; simpa using hv)]
  · congr 1
    refine List.filter_congr (fun w hw => ?_)
    obtain ⟨i, _, rfl⟩ := List.mem_map.mp hw
    rw [setUnit_ne (by omega)]
  · intro w hw
    rw [setUnit_ne (Nat.ne_of_lt hw)]
    simpa using hfirst w hw
  · intro w hw
    simpa using hfirst w hw

theorem placed_congr {q : PDBlock3} (hdisk : q.disk = s.disk) (v : Volume) :
    q.placed ramdisk key fp m v = s.placed ramdisk key fp m v := by
  unfold placed loadRam
  rw [hdisk]

theorem Placed.kept (hp : Placed h ramdisk key us ms s t) :
    t.disk = s.disk ∧ (∀ w ∈ us, (s.units w).file = none) ∧ ∀ w, w ∉ us → t.units w = s.units w := by
  induction hp with
  | nil s => exact ⟨rfl, fun w hw => absurd hw List.not_mem_nil, fun _ _ => rfl⟩
  | cons hu hfree hfirst hacq hrest ih =>
    obtain ⟨hdisk, hfrees, hkept⟩ := ih
    obtain ⟨hunits, hdisk'⟩ := acquireFile_same hacq
    refine ⟨hdisk.trans hdisk', fun w hw => ?_, fun w hw => ?_⟩
    · rcases List.mem_cons.mp hw with rfl | hw
      · exact hfree
      · have hwfree := hfrees w hw
        by_contra hused
        rw [setUnit_ne (fun heq => hused (by rw [heq]; exact hfree)), hunits] at hwfree
        exact hused hwfree
    · rw [hkept w (List.not_mem_of_not_mem_cons hw), setUnit_ne (List.ne_of_not_mem_cons hw), hunits]

theorem acquireFile_writable {name : Name} {protect : Bool} {prot : Name → Bool} {q : PDBlock3}
    (hacq : s.acquireFile h name protect = some (fp, q)) (hprot : protect = prot name) {P : Name → Prop} (hname : P name)
    (hopen : ∀ e ∈ s.openFiles, P e.name → e.fp.writable = !prot e.name) :
    fp.writable = !protect ∧ ∀ e ∈ q.openFiles, P e.name → e.fp.writable = !prot e.name := by
  unfold acquireFile at hacq
  split at hacq
  · rename_i fp' files hin
    cases Option.some.inj hacq
    obtain ⟨l, e, r, hfiles, rfl, rfl, rfl⟩ := acquireIn_some hin
    have hmem : e ∈ s.openFiles := by
      rw [hfiles]
      exact mem_middle.mpr (.inl rfl)
    refine ⟨?_, fun x hx hPx => ?_⟩
    · rw [hprot]
      exact hopen e hmem hname
    · obtain ⟨y, hy, hyname, hyfp⟩ := entry_kept (a := { e with refs := e.refs + 1 }) (b := e) rfl rfl hx
      rw [← hfiles] at hy
      rw [← hyname] at hPx ⊢
      rw [← hyfp]
      exact hopen y hy hPx
  · split at hacq
    · exact nomatch hacq
    · cases Option.some.inj hacq
      refine ⟨rfl, fun x hx hPx => ?_⟩
      rcases List.mem_cons.mp hx with rfl | hold
      · show (!protect) = !prot name
        rw [hprot]
      · exact hopen x hold hPx

theorem Placed.taken {prot : Name → Bool} (hp : Placed h ramdisk key us ms s t)
    (hprot : ∀ m ∈ ms, m.writeProtected = prot m.filename)
    (hopen : ∀ e ∈ s.openFiles, (∃ m ∈ ms, m.filename = e.name) → e.fp.writable = !prot e.name) :
    ∀ w ∈ us, ∃ m fp, (m, w) ∈ ms.zip s.freeList ∧ t.units w = s.placed ramdisk key fp m (s.units w) ∧
      fp.writable = !m.writeProtected := by
  induction hp with
  | nil s => exact fun w hw => absurd hw List.not_mem_nil
  | cons hu hfree hfirst hacq hrest ih =>
    rename_i u us m ms s q t fp
    obtain ⟨hunits, hdisk⟩ := acquireFile_same hacq
    obtain ⟨_, hfrees, hkept⟩ := hrest.kept
    have hfile := placed_file fp m ramdisk key (q.units u) q
    have hnew : u ∉ us := by
      intro hmem
      have hnone := hfrees u hmem
      rw [setUnit_self, hfile.1] at hnone
      cases hnone
    have hlist := freeList_cons hu hfree hfirst (v := q.placed ramdisk key fp m (q.units u))
      (by rw [hfile.1]; exact Option.some_ne_none fp)
    have hlist' : (q.setUnit u (q.placed ramdisk key fp m (q.units u))).freeList =
        (s.setUnit u (q.placed ramdisk key fp m (q.units u))).freeList := by
      unfold freeList setUnit
      rw [hunits]
    obtain ⟨hwritable, hopen'⟩ := acquireFile_writable (P := fun name => ∃ m' ∈ m :: ms, m'.filename = name) hacq
      (hprot m List.mem_cons_self) ⟨m, List.mem_cons_self, rfl⟩ hopen
    intro w hw
    rcases List.mem_cons.mp hw with rfl | hw
    · refine ⟨m, fp, ?_, ?_, hwritable⟩
      · rw [hlist]
        exact List.mem_cons_self
      · rw [hkept w hnew, setUnit_self, hunits, placed_congr hdisk]
    · obtain ⟨m', fp', hzip, htaken, hgranted⟩ := ih (fun m' hm' => hprot m' (List.mem_cons_of_mem m hm'))
        (fun e he ⟨m', hm', hname⟩ => hopen' e he ⟨m', List.mem_cons_of_mem m hm', hname⟩) w hw
      refine ⟨m', fp', ?_, ?_, hgranted⟩
      · rw [hlist, ← hlist']
        exact List.mem_cons_of_mem _ hzip
      · have hne : w ≠ u := fun heq => hnew (heq ▸ hw)
        rw [htaken, setUnit_ne hne, hunits]
        exact placed_congr hdisk _

variable (key) in
theorem placed_reads {v : Volume} (hclean : v.ram = [] ∨ ramdisk m = true ∧ Loads h s m)
    (hi : h.inode m.filename = some fp.inode) :
    ((s.placed ramdisk key fp m v).ram = [] ∨
      (s.placed ramdisk key fp m v).ram.length = m.dataOffset + m.blockCount * m.blockSize ∧
        m.blockCount ≤ (s.placed ramdisk key fp m v).dirty.length ∧
        ∀ j, j < m.dataOffset + m.blockCount * m.blockSize →
          (s.placed ramdisk key fp m v).ram.getD j 0 = (s.disk fp.inode).getD j 0) := by
  unfold placed
  split
  · unfold loadRam
    dsimp only
    split
    · next hsize =>
      refine .inl (hclean.resolve_right ?_)
      rintro ⟨_, hpos, hle, _⟩
      omega
    next hsize =>
    split
    · next hgot =>
      refine .inl (hclean.resolve_right ?_)
      rintro ⟨_, _, _, hfile⟩
      refine hfile fp.inode hi ?_
      unfold readAt at hgot
      rw [List.drop_zero, List.take_eq_nil_iff] at hgot
      exact hgot.resolve_left (by omega)
    · refine .inr ⟨?_, ?_, fun j hj => ?_⟩
      · unfold readAt
        rw [List.length_append, List.length_replicate, List.length_take, List.drop_zero]
        omega
      · rw [List.length_replicate]
        omega
      · show ((readAt _ 0 _) ++ _ : List Byte).getD j 0 = _
        rw [getD_append_default]
        unfold readAt
        rw [List.drop_zero, getD_take hj]
  · next hoff => exact .inl (hclean.resolve_right (fun h => hoff h.1))

structure Given (s : PDBlock3) (fp : Handle) (m : Descriptor) (v : Volume) : Prop where
  writable : fp.writable = !m.writeProtected
  count : m.blockCount < 2 ^ 32
  copy : v.ram = [] ∨ v.ram.length = m.dataOffset + m.blockCount * m.blockSize ∧ m.blockCount ≤ v.dirty.length ∧
    ∀ j, j < m.dataOffset + m.blockCount * m.blockSize → v.ram.getD j 0 = (s.disk fp.inode).getD j 0

structure Refilled (s t : PDBlock3) : Prop where
  disk : t.disk = s.disk
  units : ∀ w fp m, t.Has w fp m →
    t.units w = s.units w ∧ s.Has w fp m ∨ (s.units w).file = none ∧ Given s fp m (t.units w)

theorem Refilled.of_kept (hdisk : t.disk = s.disk)
    (hkept : ∀ w fp, (t.units w).file = some fp → t.units w = s.units w) : Refilled s t := by
  refine ⟨hdisk, fun w fp m ha => .inl ?_⟩
  have hsame := hkept w fp ha.2.1
  unfold Has at ha ⊢
  rw [hsame] at ha
  exact ⟨hsame, ha⟩

theorem Placed.refilled {media : List Descriptor} {prot : Name → Bool} (hl : Ledger h s)
    (hp : Placed h ramdisk key us media s t) (hms : ∀ m ∈ media, m.blockSize = 512 ∧ m.filename ≠ [])
    (hprot : ∀ m ∈ media, m.writeProtected = prot m.filename)
    (hopen : ∀ e ∈ s.openFiles, ¬∃ m ∈ media, m.filename = e.name)
    (hcount : ∀ m ∈ media, ∀ i, h.inode m.filename = some i → m.blockCount < 2 ^ 32)
    (hclean : Clean h ramdisk media s) : Refilled s t := by
  obtain ⟨hdisk, hfree, hkept⟩ := hp.kept
  have hfilled := hp.mounted.filled hl hms
  have htaken := hp.taken hprot (fun e he hname => absurd hname (hopen e he))
  refine ⟨hdisk, fun w fp m ha => ?_⟩
  by_cases hw : w ∈ us
  · obtain ⟨m', fp', hzip, hunit, hgranted⟩ := htaken w hw
    have hfile := placed_file fp' m' ramdisk key (s.units w) s
    rw [← hunit] at hfile
    obtain ⟨fp'', m'', hmem, hfile'', hmedia'', hi⟩ := hfilled.taken w hw
    obtain ⟨rfl, rfl⟩ := ha.unique ⟨ha.1, hfile.1, hfile.2⟩
    obtain ⟨rfl, rfl⟩ := ha.unique ⟨ha.1, hfile'', hmedia''⟩
    have hreads := placed_reads key (v := s.units w) (hclean _ hzip) hi
    rw [← hunit] at hreads
    exact .inr ⟨hfree w hw, hgranted, hcount m hmem fp.inode hi, hreads⟩
  · have hsame := hkept w hw
    unfold Has at ha ⊢
    rw [hsame] at ha
    exact .inl ⟨hsame, ha⟩

theorem volume_count {force : Bool} {d : Disks} {i : Nat} (hvol : VolumeOf h d force m.filename m)
    (hblk : m.mediaType = .blk) (hsize : m.blockSize = 512) (hi : h.inode m.filename = some i)
    (hfits : (d i).length % 2 ^ 32 < 2 ^ 31) : m.blockCount < 2 ^ 32 := by
  have hinside := hvol.inside hblk
  unfold toU64 Host.getFileSize at hinside
  rw [hi, hsize] at hinside
  dsimp only at hinside
  rw [BitVec.toInt_eq_toNat_of_lt (by rw [BitVec.toNat_ofNat]; omega), BitVec.toNat_ofNat, BitVec.toNat_ofInt] at hinside
  omega

theorem refilled_mount {force : Bool} {image : Image} (hl : Ledger h s)
    (hsuits : Suits h s (.mount ramdisk key force image)) : Refilled s (s.mountMedia h ramdisk key force image) := by
  have hvol : ∀ m ∈ mediaList h s.disk force image, VolumeOf h s.disk force m.filename m := fun m hm => mediaList_volume hm
  have hnamed : ∀ m ∈ mediaList h s.disk force image, m.filename ≠ [] := fun m hm => (hvol m hm).named
  have hsuits : Mountable h key (mediaList h s.disk force image) s →
      Sound h (mediaList h s.disk force image) s ∧ Clean h ramdisk (mediaList h s.disk force image) s := hsuits
  unfold mountMedia
  generalize mediaList h s.disk force image = media at hvol hnamed hsuits ⊢
  have hself : Refilled s s := .of_kept rfl (fun _ _ _ => rfl)
  unfold PDBlock3.mount
  split
  · exact hself
  rename_i hkey
  split
  · exact hself
  rename_i hvetted
  have hvetted : vetted h s [] media = true := by simpa using hvetted
  have hdrive : key.drive < maxDevices := Nat.lt_of_not_le (fun hle => hkey (.inr hle))
  have hms := vetted_blocks hvetted hnamed
  cases hrun : mountLoop h ramdisk key media 0 [] s with
  | mk ok t =>
  cases ok with
  | true =>
    obtain ⟨us, hp⟩ := mountLoop_placed hrun (fun w hw => absurd hw (Nat.not_lt_zero w))
    let prot : Name → Bool := fun name => (identifyMedia h s.disk name).any (·.writeProtected) || force
    have hprot : ∀ m ∈ media, m.writeProtected = prot m.filename := fun m hm => (hvol m hm).writeProtected
    have hmountable : Mountable h key media s := hp.mounted.mountable hl hdrive hvetted hnamed hprot
    obtain ⟨hsound, hclean⟩ := hsuits hmountable
    refine hp.refilled hl hms hprot ?_ (fun m hm i hi => ?_) hclean
    · rintro e he ⟨m, hm, hname⟩
      obtain ⟨u, m', hu, hmedia, hname'⟩ := hl.mounted_name he
      exact (not_mounted (vetted_all hvetted m hm).2 (hnamed m hm) hu hmedia (hl.blocks u hu m' hmedia).2).1
        (hname'.trans hname.symm)
    · exact volume_count (hvol m hm) (accepted_spec (vetted_all hvetted m hm).1).1 (hms m hm).1 hi (hsound.sizes m hm i hi)
  | false =>
    rcases mountLoop_cases h s hrun with ⟨hok, _⟩ | ⟨_, us, ms, r, hmounted, hfront, ht⟩
    · cases hok
    have hfilled := hmounted.filled hl (fun m hm => hms m (hfront.subset hm))
    obtain ⟨hdisk, hkept, hnone⟩ := giveUp_units ([] ++ us) r
    refine .of_kept (by rw [ht, hdisk, hfilled.disk]) (fun w fp hfile => ?_)
    rw [ht] at hfile ⊢
    by_cases hw : w ∈ [] ++ us
    · rw [hnone w (.inl hw)] at hfile
      cases hfile
    · rw [hkept w hw]
      exact hfilled.kept w hw

theorem Stands.refilled (hst : Stands s st) (hr : Refilled s t) :
    Stands t (fun u => if (s.units u).file = none then t.imageBlock u else st u) := by
  refine ⟨fun w fp m ha b hb => ?_, fun w fp m ha hram => ?_, fun w fp m ha => ?_⟩
  · rcases hr.units w fp m ha with ⟨hsame, hold⟩ | ⟨hfree, hgiven⟩
    · have hsource : t.source w fp = s.source w fp := by
        unfold source
        rw [hsame, hr.disk]
      rw [hsource, if_neg (by rw [hold.2.1]; exact Option.some_ne_none fp)]
      exact hst.block w fp m hold b hb
    · rw [if_pos hfree]
      unfold imageBlock source
      rw [ha.2.1, ha.2.2]
      split
      · rfl
      · next hram =>
        refine span_congr (fun i hi => ?_)
        have hend := block_end hb
        rw [hr.disk]
        exact (hgiven.copy.resolve_left hram).2.2 _ (by omega)
  · rcases hr.units w fp m ha with ⟨hsame, hold⟩ | ⟨_, hgiven⟩
    · rw [hsame] at hram ⊢
      exact hst.copy w fp m hold hram
    · have hreads := hgiven.copy.resolve_left hram
      exact ⟨hreads.1, hreads.2.1⟩
  · rcases hr.units w fp m ha with ⟨_, hold⟩ | ⟨_, hgiven⟩
    · exact hst.granted w fp m hold
    · exact hgiven.writable

end

/-! ## Runs -/

theorem Keeps.call {c : Call} (hc : ∀ ramdisk key force image, c ≠ .mount ramdisk key force image) :
    Keeps h s (call h c s) := by
  cases c with
  | mount ramdisk key force image => exact absurd rfl (hc ramdisk key force image)
  | unmount key => exact .unmount key
  | poke addr data => exact .of_same rfl rfl rfl rfl
  | read u block addr => exact .readBlock u block addr
  | write u block addr => exact .writeBlock u block addr
  | format u => exact .formatDevice u

theorem Ledger.call (hl : Ledger h s) (c : Call) : Ledger h (call h c s) := by
  cases c with
  | mount ramdisk key force image => exact hl.mount (fun m hm => (mediaList_volume hm).named)
  | _ => exact (Keeps.call (by rintro _ _ _ _ ⟨⟩)).ledger hl

theorem Spread.call {c : Call} (hs : Spread s) (hl : Ledger h s) (hsuits : Suits h s c) : Spread (call h c s) := by
  cases c with
  | mount ramdisk key force image =>
    exact hs.mount hl (fun m hm => mediaList_volume hm) (fun hmountable => (hsuits hmountable).1)
  | _ => exact (Keeps.call (by rintro _ _ _ _ ⟨⟩)).spread hl hs

theorem readBlock_same (u b addr : Nat) (s : PDBlock3) :
    (s.readBlock u b addr).units = s.units ∧ (s.readBlock u b addr).disk = s.disk := by
  unfold readBlock
  split
  · exact ⟨rfl, rfl⟩
  · split
    · exact ⟨rfl, rfl⟩
    split
    · exact ⟨rfl, rfl⟩
    · dsimp only
      split
      · exact ⟨rfl, rfl⟩
      · split <;> exact ⟨rfl, rfl⟩

theorem Stands.call {c : Call} (hst : Stands s st) (hl : Ledger h s) (hs : Spread s) (hsuits : Suits h s c) :
    Stands (call h c s) (record c s (call h c s) st) := by
  cases c with
  | mount ramdisk key force image => exact hst.refilled (refilled_mount hl hsuits)
  | unmount key => exact hst.unmount key
  | poke addr data => exact hst.of_same rfl rfl
  | read u block addr =>
    obtain ⟨hunits, hdisk⟩ := readBlock_same u block addr s
    exact hst.of_same hunits hdisk
  | write u block addr => exact hst.write hl hs
  | format u => exact hst.format hl hs

theorem filled_all {bs : List Byte} {n : Nat} (hlen : bs.length = n) (s : PDBlock3) : s.filled bs n = bs := by
  subst hlen
  have hall : s.filled bs bs.length = span 0 bs 0 bs.length := by
    refine List.map_congr_left (fun i hi => ?_)
    rw [if_pos (List.mem_range.mp hi), Nat.zero_add]
  rw [hall, span_all]

theorem Stands.readBlock {b : Nat} (hst : Stands s st) (hl : Ledger h s) (hs : Spread s) (ha : s.Has u fp m)
    (hb : b < m.blockCount) (addr : Nat) : s.readBlock u b addr = s.writeToMemory addr (st u b) := by
  have hsize := ha.size hl
  have hblock := hst.block u fp m ha b hb
  unfold source at hblock
  unfold PDBlock3.readBlock
  rw [online_iff.mpr ha]
  dsimp only
  rw [if_neg (by omega), if_neg (Nat.not_le.mpr hb)]
  by_cases hram : (s.units u).ram = []
  · have hlen : (readAt (s.disk fp.inode) (m.dataOffset + b * m.blockSize) m.blockSize).length = m.blockSize := by
      have hin := ha.inside hl hs hb
      unfold readAt
      rw [List.length_take, List.length_drop]
      omega
    rw [if_pos hram, span_eq_take (ha.inside hl hs hb)] at hblock
    rw [if_neg (not_not.mpr hram), if_neg (not_not.mpr hlen), filled_all hlen, ← hblock]
    rfl
  · rw [if_neg hram] at hblock
    rw [if_pos hram, ← hblock]
    rfl

theorem writeBlock_ram (hram : (s.units u).ram ≠ []) (b addr : Nat) : (s.writeBlock u b addr).disk = s.disk := by
  unfold writeBlock
  split
  · rfl
  · split
    · rfl
    split
    · rfl
    split
    · rfl
    · rw [if_pos hram]
      rfl

theorem formatDevice_ram (hram : (s.units u).ram ≠ []) : (s.formatDevice u).disk = s.disk := by
  unfold formatDevice
  split
  · rfl
  · split
    · rfl
    split
    · rfl
    · rw [if_pos hram]
      rfl

theorem Stands.faithful (hst : Stands s st) (hl : Ledger h s) (hs : Spread s) : Faithful s st := by
  refine ⟨fun u fp m hon b hb addr => hst.readBlock hl hs (online_iff.mp hon) hb addr,
    fun u hram => ⟨writeBlock_ram hram, formatDevice_ram hram⟩, fun u fp m hon hram b hb => ?_⟩
  have hcopy := hst.copy u fp m (online_iff.mp hon) hram
  rw [hcopy.1]
  exact ⟨block_end hb, by omega⟩

theorem finish_stands (hst : Stands s st) (hl : Ledger h s) (hs : Spread s) (cs : List Call) (hsuited : Suited h cs s) :
    Faithful (finish h cs (s, st)).1 (finish h cs (s, st)).2 := by
  induction cs generalizing s st with
  | nil => exact hst.faithful hl hs
  | cons c cs ih =>
    exact ih (hst.call hl hs hsuited.1) (hl.call c) (hs.call hl hsuited.1) hsuited.2

theorem Fresh.stands (hf : Fresh s) (st : Store) : Stands s st := by
  have hnone : ∀ u fp m, ¬s.Has u fp m := by
    rintro u fp m ⟨_, hfile, _⟩
    rw [(hf.units u).1] at hfile
    cases hfile
  exact ⟨fun u fp m ha => absurd ha (hnone u fp m), fun u fp m ha => absurd ha (hnone u fp m),
    fun u fp m ha => absurd ha (hnone u fp m)⟩

/-- Whatever is mounted, unmounted, read, written and formatted, a block reads as it was written last, or
as it was in the image, where no copy is left of another image. -/
theorem blocks_are_array (h : Host) {s : PDBlock3} (hf : Fresh s) (st : Store) (cs : List Call) (hsuited : Suited h cs s) :
    Faithful (finish h cs (s, st)).1 (finish h cs (s, st)).2 :=
  finish_stands (hf.stands st) hf.ledger hf.spread cs hsuited

end

def stale : List Call :=
  [.mount (fun _ => true) { slot := 7 } false (.file ['a', '.', 'h', 'd', 'v']), .poke 0x1000 1, .write 0 0 0x1000,
    .unmount { slot := 7 }, .mount (fun _ => false) { slot := 7 } false (.file ['a', '.', 'h', 'd', 'v'])]

/-- The second mount reads what was written to the first, and the file still has its own. -/
theorem blocks_stale :
    ¬Faithful (finish oneFile stale (unmounted (List.replicate 1024 7), fun _ _ => [])).1
      (finish oneFile stale (unmounted (List.replicate 1024 7), fun _ _ => [])).2 := by
  intro hf
  have hfile : ((finish oneFile stale (unmounted (List.replicate 1024 7), fun _ _ => [])).1.units 0).file.isSome = true := by
    decide +kernel
  have hmedia : ((finish oneFile stale (unmounted (List.replicate 1024 7), fun _ _ => [])).1.units 0).media.any
      (fun m => decide (0 < m.blockCount)) = true := by
    decide +kernel
  obtain ⟨fp, hfp⟩ := Option.isSome_iff_exists.mp hfile
  obtain ⟨m, hm, hcount⟩ := (Option.any_eq_true _ _).mp hmedia
  have hread := hf.read 0 fp m (online_iff.mpr ⟨by decide, hfp, hm⟩) 0 (of_decide_eq_true hcount) 0x2000
  have hgot : ((finish oneFile stale (unmounted (List.replicate 1024 7), fun _ _ => [])).1.readBlock 0 0 0x2000).mem
      0x2000 = 1 := by
    decide +kernel
  have hwanted : ((finish oneFile stale (unmounted (List.replicate 1024 7), fun _ _ => [])).1.writeToMemory 0x2000
      ((finish oneFile stale (unmounted (List.replicate 1024 7), fun _ _ => [])).2 0 0)).mem 0x2000 = 7 := by
    decide +kernel
  rw [hread, hwanted] at hgot
  exact absurd hgot (by decide)

theorem blocks_are_array_one :
    Faithful (finish oneFile [.mount (fun _ => true) { slot := 7 } false (.file ['a', '.', 'h', 'd', 'v'])]
        (unmounted (List.replicate 1024 7), fun _ _ => [])).1
      (finish oneFile [.mount (fun _ => true) { slot := 7 } false (.file ['a', '.', 'h', 'd', 'v'])]
        (unmounted (List.replicate 1024 7), fun _ _ => [])).2 := by
  have hfresh : Fresh (unmounted (List.replicate 1024 7)) := ⟨fun _ => ⟨rfl, rfl⟩, rfl⟩
  refine blocks_are_array oneFile hfresh _ _ ⟨fun _ => ⟨⟨?_, ?_⟩, fun _ _ => .inl rfl⟩, trivial⟩
  · have hlist : (mediaList oneFile (unmounted (List.replicate 1024 7)).disk false (.file ['a', '.', 'h', 'd', 'v'])).length =
        1 := by decide +kernel
    obtain ⟨m, hm⟩ := List.length_eq_one_iff.mp hlist
    rw [hm]
    exact List.pairwise_singleton _ _
  · intro m _ i _
    show (List.replicate 1024 (7 : Byte)).length % 2 ^ 32 < 2 ^ 31
    rw [List.length_replicate]
    decide

end PDBlock3

end GSSquared.Block
