/-
The two SmartPort forms and the ProDOS commands, compared.
-/
import GSSquared.Block.PDBlock3

set_option linter.all false

namespace GSSquared.Block

open Bits Wire

namespace PDBlock3

/-- The same device, but for the command buffer and the status registers. -/
structure Same (s t : PDBlock3) : Prop where
  slot : t.slot = s.slot
  units : t.units = s.units
  openFiles : t.openFiles = s.openFiles
  nextId : t.nextId = s.nextId
  error : t.error = s.error
  mem : t.mem = s.mem
  disk : t.disk = s.disk
  stack : t.stack = s.stack
  deviceCount : t.deviceCount = s.deviceCount

section

variable {s t : PDBlock3}

theorem Same.eq (h : Same s t) :
    t = { s with cmd := t.cmd, index := t.index, status1 := t.status1, status2 := t.status2 } := by
  obtain ⟨hslot, hunits, hfiles, hid, herror, hmem, hdisk, hstack, hcount⟩ := h
  cases s
  cases t
  cases hslot
  cases hunits
  cases hfiles
  cases hid
  cases herror
  cases hmem
  cases hdisk
  cases hstack
  cases hcount
  rfl

theorem readBlock_buffer (drive block addr : Nat) (s : PDBlock3) (cmd : List Byte) (index : Nat) (x y : Byte) :
    readBlock drive block addr { s with cmd := cmd, index := index, status1 := x, status2 := y } =
      { readBlock drive block addr s with cmd := cmd, index := index, status1 := x, status2 := y } := by
  have honline : online { s with cmd := cmd, index := index, status1 := x, status2 := y } drive = s.online drive := rfl
  unfold readBlock
  rw [honline]
  cases s.online drive with
  | error e => rfl
  | ok p =>
    dsimp only
    split
    · rfl
    split
    · rfl
    split
    · rfl
    · split <;> rfl

theorem storeFile_buffer (fp : Handle) (off : Nat) (bs : List Byte) (s : PDBlock3) (cmd : List Byte) (index : Nat) (x y : Byte) :
    storeFile fp off bs { s with cmd := cmd, index := index, status1 := x, status2 := y } =
      { storeFile fp off bs s with cmd := cmd, index := index, status1 := x, status2 := y } := by
  unfold storeFile
  split <;> rfl

theorem writeBlock_buffer (drive block addr : Nat) (s : PDBlock3) (cmd : List Byte) (index : Nat) (x y : Byte) :
    writeBlock drive block addr { s with cmd := cmd, index := index, status1 := x, status2 := y } =
      { writeBlock drive block addr s with cmd := cmd, index := index, status1 := x, status2 := y } := by
  have honline : online { s with cmd := cmd, index := index, status1 := x, status2 := y } drive = s.online drive := rfl
  unfold writeBlock
  rw [honline]
  cases s.online drive with
  | error e => rfl
  | ok p =>
    dsimp only
    split
    · rfl
    split
    · rfl
    split
    · rfl
    split
    · rfl
    · exact storeFile_buffer _ _ _ _ _ _ _ _

theorem zeroBlocks_buffer (fp : Handle) (media : Descriptor) (n block : Nat) (s : PDBlock3) (cmd : List Byte) (index : Nat)
    (x y : Byte) :
    zeroBlocks fp media block n { s with cmd := cmd, index := index, status1 := x, status2 := y } =
      { zeroBlocks fp media block n s with cmd := cmd, index := index, status1 := x, status2 := y } := by
  induction n generalizing s block with
  | zero => rfl
  | succ n ih =>
    rw [zeroBlocks, zeroBlocks, storeFile_buffer]
    exact ih _ _

theorem formatDevice_buffer (drive : Nat) (s : PDBlock3) (cmd : List Byte) (index : Nat) (x y : Byte) :
    formatDevice drive { s with cmd := cmd, index := index, status1 := x, status2 := y } =
      { formatDevice drive s with cmd := cmd, index := index, status1 := x, status2 := y } := by
  have honline : online { s with cmd := cmd, index := index, status1 := x, status2 := y } drive = s.online drive := rfl
  unfold formatDevice
  rw [honline]
  cases s.online drive with
  | error e => rfl
  | ok p =>
    dsimp only
    split
    · rfl
    split
    · rfl
    split
    · rfl
    split
    · rfl
    · rw [zeroBlocks_buffer]
      rfl

def blockCommand (cmd : Byte) (drive block addr : Nat) (s : PDBlock3) : PDBlock3 :=
  if cmd = 1 then s.readBlock drive block addr
  else if cmd = 2 then s.writeBlock drive block addr
  else s.formatDevice drive

def Bufferless (op : PDBlock3 → PDBlock3) : Prop :=
  ∀ s cmd index x y, Same (op s) (op { s with cmd := cmd, index := index, status1 := x, status2 := y })

theorem blockCommand_buffer (cmd : Byte) (drive block addr : Nat) :
    Bufferless (blockCommand cmd drive block addr) := by
  intro s bs index x y
  unfold PDBlock3.blockCommand
  split
  · rw [readBlock_buffer _ _ _ s bs]
    exact ⟨rfl, rfl, rfl, rfl, rfl, rfl, rfl, rfl, rfl⟩
  split
  · rw [writeBlock_buffer _ _ _ s bs]
    exact ⟨rfl, rfl, rfl, rfl, rfl, rfl, rfl, rfl, rfl⟩
  · rw [formatDevice_buffer _ s bs]
    exact ⟨rfl, rfl, rfl, rfl, rfl, rfl, rfl, rfl, rfl⟩

theorem Same.apply {op : PDBlock3 → PDBlock3} (hop : Bufferless op) (h : Same s t) : Same (op s) (op t) := by
  have hframe := hop s t.cmd t.index t.status1 t.status2
  rwa [← h.eq] at hframe

theorem Same.trans {u : PDBlock3} (h : Same s t) (h' : Same t u) : Same s u := by
  obtain ⟨hslot, hunits, hfiles, hid, herror, hmem, hdisk, hstack, hcount⟩ := h
  obtain ⟨hslot', hunits', hfiles', hid', herror', hmem', hdisk', hstack', hcount'⟩ := h'
  exact ⟨hslot'.trans hslot, hunits'.trans hunits, hfiles'.trans hfiles, hid'.trans hid, herror'.trans herror,
    hmem'.trans hmem, hdisk'.trans hdisk, hstack'.trans hstack, hcount'.trans hcount⟩

theorem Same.symm (h : Same s t) : Same t s := by
  obtain ⟨hslot, hunits, hfiles, hid, herror, hmem, hdisk, hstack, hcount⟩ := h
  exact ⟨hslot.symm, hunits.symm, hfiles.symm, hid.symm, herror.symm, hmem.symm, hdisk.symm, hstack.symm,
    hcount.symm⟩

theorem same_reset (s : PDBlock3) : Same s s.reset := ⟨rfl, rfl, rfl, rfl, rfl, rfl, rfl, rfl, rfl⟩

theorem Same.reset (h : Same s t) : Same s.reset t.reset :=
  (same_reset s).symm.trans (h.trans (same_reset t))

theorem Same.clearStatus (h : Same s t) : Same s.clearStatus t.clearStatus :=
  ⟨h.slot, h.units, h.openFiles, h.nextId, rfl, h.mem, h.disk, h.stack, h.deviceCount⟩

theorem packed_succ (n value : Nat) : packed (n + 1) value = BitVec.ofNat 8 value :: packed n (value / 256) := by
  unfold packed
  rw [List.range_succ_eq_map, List.map_cons, List.map_map, Nat.pow_zero, Nat.div_one]
  congr 1
  apply List.map_congr_left
  intro i _
  show BitVec.ofNat 8 (value / 256 ^ (i + 1)) = BitVec.ofNat 8 (value / 256 / 256 ^ i)
  rw [Nat.div_div_eq_div_mul, Nat.pow_succ, Nat.mul_comm]

@[simp] theorem packed_length (n value : Nat) : (packed n value).length = n := by
  rw [packed, List.length_map, List.length_range]

theorem le_packed (n value : Nat) : le (packed n value) = value % 256 ^ n := by
  induction n generalizing value with
  | zero => rw [Nat.pow_zero, Nat.mod_one]; rfl
  | succ n ih =>
    rw [packed_succ, le, ih, BitVec.toNat_ofNat]
    show value % 256 + 256 * (value / 256 % 256 ^ n) = value % 256 ^ (n + 1)
    rw [Nat.pow_succ', Nat.mod_mul]

theorem memoryBytes_add (s : PDBlock3) (addr m n : Nat) :
    s.memoryBytes addr (m + n) = s.memoryBytes addr m ++ s.memoryBytes (addr + m) n := by
  unfold PDBlock3.memoryBytes
  rw [List.range_add, List.map_append, List.map_map]
  congr 1
  apply List.map_congr_left
  intro i _
  show s.readMem (addr + (m + i)) = s.readMem (addr + m + i)
  rw [Nat.add_assoc]

def Holds (s : PDBlock3) (addr : Nat) (bs : List Byte) : Prop := s.memoryBytes addr bs.length = bs

theorem Holds.append {addr : Nat} {bs bs' : List Byte} (h : s.Holds addr (bs ++ bs')) :
    s.Holds addr bs ∧ s.Holds (addr + bs.length) bs' := by
  unfold Holds at h ⊢
  rw [List.length_append, memoryBytes_add] at h
  exact List.append_inj h (memoryBytes_length _ _ _)

theorem Holds.cons {addr : Nat} {b : Byte} {bs : List Byte} (h : s.Holds addr (b :: bs)) :
    s.readMem addr = b ∧ s.Holds (addr + 1) bs := by
  have hboth : s.Holds addr [b] ∧ s.Holds (addr + 1) bs := Holds.append h
  exact ⟨List.head_eq_of_cons_eq hboth.1, hboth.2⟩

theorem Holds.word {addr n value : Nat} (h : s.Holds addr (packed n value)) (hv : value < 256 ^ n) :
    s.word addr n = value := by
  have hbytes : s.memoryBytes addr n = packed n value := by
    have h' := h
    unfold Holds at h'
    rwa [packed_length] at h'
  rw [PDBlock3.word, hbytes, le_packed, Nat.mod_eq_of_lt hv]

def statusList (width : Nat) (pcount unit : Byte) (ptr : Nat) (code : Byte) : List Byte :=
  pcount :: unit :: (packed width ptr ++ [code])

def blockList (width width' : Nat) (pcount unit : Byte) (addr block : Nat) : List Byte :=
  pcount :: unit :: (packed width addr ++ packed width' block)

theorem standard_status {p ptr : Nat} {pcount unit code : Byte} (h : s.Holds p (statusList 2 pcount unit ptr code))
    (hptr : ptr < 2 ^ 16) : standard.status s p = (unit, ptr, code) := by
  obtain ⟨_, h⟩ := Holds.cons h
  obtain ⟨hunit, h⟩ := Holds.cons h
  obtain ⟨hword, h⟩ := Holds.append h
  obtain ⟨hcode, _⟩ := Holds.cons h
  rw [packed_length] at hcode
  show (s.readMem (p + 1), s.word (p + 2) 2, s.readMem (p + 4)) = _
  rw [hunit, Holds.word hword hptr, hcode]

theorem extended_status {p ptr : Nat} {pcount unit code : Byte} (h : s.Holds p (statusList 4 pcount unit ptr code))
    (hptr : ptr < 2 ^ 16) : extended.status s p = (unit, ptr, code) := by
  obtain ⟨_, h⟩ := Holds.cons h
  obtain ⟨hunit, h⟩ := Holds.cons h
  obtain ⟨hword, h⟩ := Holds.append h
  obtain ⟨hcode, _⟩ := Holds.cons h
  rw [packed_length] at hcode
  show (s.readMem (p + 1), s.word (p + 2) 4, s.readMem (p + 6)) = _
  rw [hunit, Holds.word hword (by omega), hcode]

theorem standard_rw {p addr block : Nat} {pcount unit : Byte} (h : s.Holds p (blockList 2 3 pcount unit addr block))
    (haddr : addr < 2 ^ 16) (hblock : block < 2 ^ 24) : standard.rw s p = (unit, addr, block) := by
  obtain ⟨_, h⟩ := Holds.cons h
  obtain ⟨hunit, h⟩ := Holds.cons h
  obtain ⟨hword, hlast⟩ := Holds.append h
  rw [packed_length] at hlast
  show (s.readMem (p + 1), s.word (p + 2) 2, s.word (p + 4) 3) = _
  rw [hunit, Holds.word hword haddr, Holds.word hlast hblock]

theorem extended_rw {p addr block : Nat} {pcount unit : Byte} (h : s.Holds p (blockList 4 4 pcount unit addr block))
    (haddr : addr < 2 ^ 16) (hblock : block < 2 ^ 24) : extended.rw s p = (unit, addr, block) := by
  obtain ⟨_, h⟩ := Holds.cons h
  obtain ⟨hunit, h⟩ := Holds.cons h
  obtain ⟨hword, hlast⟩ := Holds.append h
  rw [packed_length] at hlast
  show (s.readMem (p + 1), s.word (p + 2) 4, s.word (p + 6) 4) = _
  rw [hunit, Holds.word hword (by omega), Holds.word hlast (by omega)]

def commandBlock (s : PDBlock3) : Nat := le [s.cmd.getD 1 0, s.cmd.getD 2 0]

/-- The card is asked for a SmartPort command, with a pointer of `n` bytes to this list. -/
structure Calls (n : Nat) (cmdnum : Byte) (list : List Byte) (s : PDBlock3) : Prop where
  version : s.cmd.getD 0 0 = 2
  number : s.readMem s.commandBlock = cmdnum
  list : s.Holds (s.word (s.commandBlock + 1) n) list

theorem Calls.standard {cmdnum : Byte} {list : List Byte} (h : s.Calls 2 cmdnum list) (hbit : cmdnum.getLsbD 6 = false) :
    ∃ p, s.clearStatus.Holds p list ∧ s.execute = (s.clearStatus.spExecuteImpl PDBlock3.standard cmdnum p).reset := by
  refine ⟨_, h.list, ?_⟩
  have hnumber : s.readMem (le [s.cmd.getD 1 0, s.cmd.getD 2 0]) = cmdnum := h.number
  have hbit' : ¬cmdnum.getLsbD 6 = true := by rw [hbit]; exact Bool.false_ne_true
  unfold execute
  dsimp only
  rw [h.version, if_neg (show ¬(2 : Byte) = 1 by decide), if_pos rfl, hnumber, if_neg hbit']
  rfl

theorem Calls.extended {cmdnum : Byte} {list : List Byte} (h : s.Calls 3 cmdnum list) (hbit : cmdnum.getLsbD 6 = true) :
    ∃ p, s.clearStatus.Holds p list ∧
      s.execute = (s.clearStatus.spExecuteImpl PDBlock3.extended (cmdnum &&& 0x3F) p).reset := by
  refine ⟨_, h.list, ?_⟩
  have hnumber : s.readMem (le [s.cmd.getD 1 0, s.cmd.getD 2 0]) = cmdnum := h.number
  unfold execute
  dsimp only
  rw [h.version, if_neg (show ¬(2 : Byte) = 1 by decide), if_pos rfl, hnumber, if_pos hbit]
  rfl

def unitCommand (cmd unit : Byte) (block addr : Nat) (s : PDBlock3) : PDBlock3 :=
  if unit = 0 then s.fail errorNoDevice else s.blockCommand cmd (unit.toNat - 1) block addr

theorem unitCommand_buffer (cmd unit : Byte) (block addr : Nat) : Bufferless (unitCommand cmd unit block addr) := by
  intro s bs index x y
  unfold unitCommand
  split
  · exact ⟨rfl, rfl, rfl, rfl, rfl, rfl, rfl, rfl, rfl⟩
  · apply blockCommand_buffer

theorem spExecuteImpl_block {f : Forms} {cmdnum unit : Byte} {p addr block : Nat}
    (hcmd : cmdnum = 1 ∨ cmdnum = 2 ∨ cmdnum = 3) (hrw : f.rw s p = (unit, addr, block)) :
    s.spExecuteImpl f cmdnum p = s.unitCommand cmdnum unit block addr := by
  unfold spExecuteImpl
  rw [hrw]
  rcases hcmd with rfl | rfl | rfl <;> rfl

theorem Calls.block_standard {cmdnum pcount unit : Byte} {addr block : Nat}
    (h : s.Calls 2 cmdnum (blockList 2 3 pcount unit addr block)) (hcmd : cmdnum = 1 ∨ cmdnum = 2 ∨ cmdnum = 3)
    (haddr : addr < 2 ^ 16) (hblock : block < 2 ^ 24) :
    s.execute = (s.clearStatus.unitCommand cmdnum unit block addr).reset := by
  obtain ⟨p, hlist, hexec⟩ := h.standard (by rcases hcmd with rfl | rfl | rfl <;> decide)
  rw [hexec, spExecuteImpl_block hcmd (standard_rw hlist haddr hblock)]

theorem Calls.block_extended {cmdnum pcount unit : Byte} {addr block : Nat}
    (h : s.Calls 3 (cmdnum ||| 0x40) (blockList 4 4 pcount unit addr block))
    (hcmd : cmdnum = 1 ∨ cmdnum = 2 ∨ cmdnum = 3) (haddr : addr < 2 ^ 16) (hblock : block < 2 ^ 24) :
    s.execute = (s.clearStatus.unitCommand cmdnum unit block addr).reset := by
  obtain ⟨p, hlist, hexec⟩ := h.extended (by rcases hcmd with rfl | rfl | rfl <;> decide)
  have hnum : (cmdnum ||| 0x40) &&& 0x3F = cmdnum := by rcases hcmd with rfl | rfl | rfl <;> decide
  rw [hexec, hnum, spExecuteImpl_block hcmd (extended_rw hlist haddr hblock)]

def Counted (unit : Byte) : Prop := 0 < unit.toNat ∧ unit.toNat ≤ maxUnits

def statusTail (code unit : Byte) : List Byte := if code = 0 then [] else dibTail (unit.toNat - 1)

def unitStatus (width : Nat) (unit : Byte) (ptr : Nat) (code : Byte) (s : PDBlock3) : PDBlock3 :=
  (s.driveStatus (unit.toNat - 1)).2.respond ptr
    (statusBytes width (s.driveStatus (unit.toNat - 1)).1 ++ statusTail code unit)

def otherStatus (unit : Byte) (ptr : Nat) (code : Byte) (s : PDBlock3) : PDBlock3 :=
  if code = 0 then if unit = 0 then s.respond ptr (s.spNumDevices :: List.replicate 7 0) else s.fail 0x21
  else s.fail errorNoDevice

theorem unit_pred {unit : Byte} (h : 0 < unit.toNat) : (unit - 1).toNat = unit.toNat - 1 := by
  rw [BitVec.toNat_sub]
  have := unit.isLt
  show (2 ^ 8 - 1 + unit.toNat) % 2 ^ 8 = _
  omega

theorem spStatus_counted {f : Forms} {p ptr : Nat} {unit code : Byte} (hstatus : f.status s p = (unit, ptr, code))
    (hcode : code = 0 ∨ code = 3) (hunit : Counted unit) :
    s.spStatus f p = s.unitStatus f.countSize unit ptr code := by
  obtain ⟨hpos, hmax⟩ := hunit
  have hne : ¬unit = 0 := by
    rintro rfl
    exact Nat.lt_irrefl 0 hpos
  unfold spStatus unitStatus statusTail
  rw [hstatus]
  dsimp only
  rcases hcode with rfl | rfl
  · rw [if_pos rfl, if_neg hne, if_neg (Nat.not_lt.mpr hmax), if_pos rfl, List.append_nil]
  · have hu : ¬maxUnits ≤ unit.toNat - 1 := by omega
    rw [if_neg (by decide), if_pos rfl, unit_pred hpos, if_neg hu, if_neg (by decide)]

theorem spStatus_other {f : Forms} {p ptr : Nat} {unit code : Byte} (hstatus : f.status s p = (unit, ptr, code))
    (hcode : code = 0 ∨ code = 3) (hunit : ¬Counted unit) : s.spStatus f p = s.otherStatus unit ptr code := by
  have hrange : unit.toNat = 0 ∨ maxUnits < unit.toNat := by
    unfold Counted at hunit
    omega
  unfold spStatus otherStatus
  rw [hstatus]
  dsimp only
  rcases hcode with rfl | rfl
  · rw [if_pos rfl, if_pos rfl]
    split
    · rfl
    · rename_i hne
      have hlarge : maxUnits < unit.toNat := by
        rcases hrange with hzero | h
        · exact absurd (BitVec.eq_of_toNat_eq hzero) hne
        · exact h
      rw [if_pos hlarge]
  · have hu : maxUnits ≤ (unit - 1).toNat := by
      rcases hrange with hzero | h
      · rw [BitVec.eq_of_toNat_eq (y := 0) hzero]
        decide
      · rw [unit_pred (by omega)]
        omega
    rw [if_neg (by decide), if_pos rfl, if_pos hu, if_neg (by decide)]

theorem otherStatus_buffer (unit : Byte) (ptr : Nat) (code : Byte) : Bufferless (otherStatus unit ptr code) := by
  intro s bs index x y
  unfold otherStatus
  split
  · split <;> exact ⟨rfl, rfl, rfl, rfl, rfl, rfl, rfl, rfl, rfl⟩
  · exact ⟨rfl, rfl, rfl, rfl, rfl, rfl, rfl, rfl, rfl⟩

theorem driveStatus_buffer (u : Nat) : Bufferless (fun s => (s.driveStatus u).2) := by
  intro s bs index x y
  dsimp only
  unfold driveStatus
  split
  · rename_i hnone
    have hnone' : (s.units u).media = none := by assumption
    rw [hnone']
    exact ⟨rfl, rfl, rfl, rfl, rfl, rfl, rfl, rfl, rfl⟩
  · rename_i media hsome
    have hsome' : (s.units u).media = some media := by assumption
    rw [hsome']
    exact ⟨rfl, rfl, rfl, rfl, rfl, rfl, rfl, rfl, rfl⟩

structure Answers (unit : Byte) (ptr : Nat) (code : Byte) (s s' t' : PDBlock3) : Prop where
  rest : Same s' { t' with mem := s'.mem }
  counted : Counted unit →
    s'.mem = storeBytes ptr (statusBytes 3 (s.driveStatus (unit.toNat - 1)).1 ++ statusTail code unit) s.mem ∧
    t'.mem = storeBytes ptr (statusBytes 4 (s.driveStatus (unit.toNat - 1)).1 ++ statusTail code unit) s.mem
  other : ¬Counted unit → t'.mem = s'.mem

theorem driveStatus_mem (u : Nat) (s : PDBlock3) : (s.driveStatus u).2.mem = s.mem := by
  unfold driveStatus
  split <;> rfl

theorem Same.driveStatus (h : Same s t) (u : Nat) : (t.driveStatus u).1 = (s.driveStatus u).1 := by
  unfold PDBlock3.driveStatus getDriveInfo
  rw [h.units]
  split <;> rfl

theorem driveStatus_clear (u : Nat) (s : PDBlock3) : (s.clearStatus.driveStatus u).1 = (s.driveStatus u).1 := by
  unfold driveStatus
  split <;> rename_i hmedia
  · have hmedia' : (s.units u).media = none := hmedia
    rw [hmedia']
  · have hmedia' : (s.units u).media = some _ := hmedia
    rw [hmedia']
    rfl

theorem unitStatus_mem (width : Nat) (unit : Byte) (ptr : Nat) (code : Byte) (s : PDBlock3) :
    (s.unitStatus width unit ptr code).mem =
      storeBytes ptr (statusBytes width (s.driveStatus (unit.toNat - 1)).1 ++ statusTail code unit) s.mem := by
  show storeBytes _ _ (s.driveStatus (unit.toNat - 1)).2.mem = _
  rw [driveStatus_mem]

theorem Calls.status_standard {pcount unit code : Byte} {ptr : Nat}
    (h : s.Calls 2 0 (statusList 2 pcount unit ptr code)) (hcode : code = 0 ∨ code = 3) (hptr : ptr < 2 ^ 16) :
    (Counted unit → s.execute = (s.clearStatus.unitStatus 3 unit ptr code).reset) ∧
      (¬Counted unit → s.execute = (s.clearStatus.otherStatus unit ptr code).reset) := by
  obtain ⟨p, hlist, hexec⟩ := h.standard (by decide)
  have hstatus := standard_status hlist hptr
  have himpl : s.clearStatus.spExecuteImpl PDBlock3.standard 0 p = s.clearStatus.spStatus PDBlock3.standard p := rfl
  rw [hexec, himpl]
  constructor <;> intro hunit
  · rw [spStatus_counted hstatus hcode hunit]
    rfl
  · rw [spStatus_other hstatus hcode hunit]

theorem Calls.status_extended {pcount unit code : Byte} {ptr : Nat}
    (h : s.Calls 3 0x40 (statusList 4 pcount unit ptr code)) (hcode : code = 0 ∨ code = 3) (hptr : ptr < 2 ^ 16) :
    (Counted unit → s.execute = (s.clearStatus.unitStatus 4 unit ptr code).reset) ∧
      (¬Counted unit → s.execute = (s.clearStatus.otherStatus unit ptr code).reset) := by
  obtain ⟨p, hlist, hexec⟩ := h.extended (by decide)
  have hstatus := extended_status hlist hptr
  have himpl : s.clearStatus.spExecuteImpl PDBlock3.extended (0x40 &&& 0x3F) p =
      s.clearStatus.spStatus PDBlock3.extended p := rfl
  rw [hexec, himpl]
  constructor <;> intro hunit
  · rw [spStatus_counted hstatus hcode hunit]
    rfl
  · rw [spStatus_other hstatus hcode hunit]

theorem Same.answer (h : Same s t) (ptr : Nat) (bytes bytes' : List Byte) : Same (s.respond ptr bytes).reset
    { (t.respond ptr bytes').reset with mem := (s.respond ptr bytes).reset.mem } :=
  ⟨h.slot, h.units, h.openFiles, h.nextId, h.error, rfl, h.disk, h.stack, h.deviceCount⟩

theorem status_forms_agree (h : Same s t) {pcount pcount' unit code : Byte} {ptr : Nat}
    (hs : s.Calls 2 0 (statusList 2 pcount unit ptr code)) (ht : t.Calls 3 0x40 (statusList 4 pcount' unit ptr code))
    (hcode : code = 0 ∨ code = 3) (hptr : ptr < 2 ^ 16) : Answers unit ptr code s s.execute t.execute := by
  obtain ⟨hcounted, hother⟩ := hs.status_standard hcode hptr
  obtain ⟨hcounted', hother'⟩ := ht.status_extended hcode hptr
  have hclear := h.clearStatus
  by_cases hunit : Counted unit
  · rw [hcounted hunit, hcounted' hunit]
    refine ⟨?_, fun _ => ⟨?_, ?_⟩, fun hno => absurd hunit hno⟩
    · exact (hclear.apply (driveStatus_buffer (unit.toNat - 1))).answer ptr _ _
    · show (s.clearStatus.unitStatus 3 unit ptr code).mem = _
      rw [unitStatus_mem, driveStatus_clear]
      rfl
    · show (t.clearStatus.unitStatus 4 unit ptr code).mem = _
      rw [unitStatus_mem, driveStatus_clear, h.driveStatus]
      show storeBytes _ _ t.mem = _
      rw [h.mem]
  · rw [hother hunit, hother' hunit]
    have hsame := (hclear.apply (otherStatus_buffer unit ptr code)).reset
    refine ⟨⟨hsame.slot, hsame.units, hsame.openFiles, hsame.nextId, hsame.error, rfl, hsame.disk, hsame.stack,
      hsame.deviceCount⟩, fun hyes => absurd hyes hunit, fun _ => hsame.mem⟩

theorem block_forms_agree (h : Same s t) {cmdnum pcount pcount' unit : Byte} {addr block : Nat}
    (hs : s.Calls 2 cmdnum (blockList 2 3 pcount unit addr block))
    (ht : t.Calls 3 (cmdnum ||| 0x40) (blockList 4 4 pcount' unit addr block))
    (hcmd : cmdnum = 1 ∨ cmdnum = 2 ∨ cmdnum = 3) (haddr : addr < 2 ^ 16) (hblock : block < 2 ^ 24) :
    Same s.execute t.execute := by
  rw [hs.block_standard hcmd haddr hblock, ht.block_extended hcmd haddr hblock]
  exact (h.clearStatus.apply (unitCommand_buffer cmdnum unit block addr)).reset

structure ProDos (cmd : Byte) (drive addr block : Nat) (s : PDBlock3) : Prop where
  version : s.cmd.getD 0 0 = 1
  checksum : (s.cmd.take s.index).foldl (· ^^^ ·) 0 = 0
  number : s.cmd.getD 1 0 = cmd
  drive : (s.cmd.getD 2 0 >>> 7).toNat = drive
  slot : (s.cmd.getD 2 0 >>> 4) &&& 7 = s.slot
  addr : le [s.cmd.getD 3 0, s.cmd.getD 4 0] = addr
  block : le [s.cmd.getD 5 0, s.cmd.getD 6 0] = block

def driveCommand (cmd : Byte) (drive block addr : Nat) (s : PDBlock3) : PDBlock3 :=
  if cmd = 0 then
    match (s.units drive).media with
    | none => s.fail errorDeviceOffline
    | some media =>
      { s with status1 := BitVec.ofNat 8 media.blockCount, status2 := BitVec.ofNat 8 (media.blockCount / 256) }
  else if cmd = 1 then s.readBlock drive block addr
  else if cmd = 2 then s.writeBlock drive block addr
  else if cmd = 3 then s.formatDevice drive
  else s

theorem ProDos.execute {cmd : Byte} {drive addr block : Nat} (h : s.ProDos cmd drive addr block) :
    s.execute = (if (s.units drive).file = none then s.fail errorDeviceOffline
      else s.clearStatus.driveCommand cmd drive block addr).reset := by
  unfold PDBlock3.execute pdExecute
  dsimp only
  rw [h.version, if_pos rfl, h.checksum, if_neg (not_not_intro rfl), h.slot, if_neg (not_not_intro rfl), h.drive,
    h.number, h.addr, h.block]
  rfl

theorem ProDos.drive_lt {cmd : Byte} {drive addr block : Nat} (h : s.ProDos cmd drive addr block) : drive < 2 := by
  rw [← h.drive, BitVec.toNat_ushiftRight, Nat.shiftRight_eq_div_pow]
  have := (s.cmd.getD 2 0).isLt
  omega

theorem online_offline {drive : Nat} (hdrive : drive < maxUnits) (hfile : (s.units drive).file = none) :
    s.online drive = .error errorDeviceOffline := by
  unfold online
  rw [if_neg (Nat.not_le.mpr hdrive), hfile]

theorem blockCommand_offline {drive : Nat} (hdrive : drive < maxUnits) (hfile : (s.units drive).file = none)
    (cmd : Byte) (block addr : Nat) : s.blockCommand cmd drive block addr = s.fail errorDeviceOffline := by
  have honline := online_offline hdrive hfile
  unfold PDBlock3.blockCommand readBlock writeBlock formatDevice
  rw [honline]
  split
  · rfl
  split <;> rfl

theorem prodos_agrees (h : Same s t) {cmd pcount unit : Byte} {drive addr block : Nat}
    (hs : s.ProDos cmd drive addr block) (ht : t.Calls 2 cmd (blockList 2 3 pcount unit addr block))
    (hcmd : cmd = 1 ∨ cmd = 2 ∨ cmd = 3) (hunit : unit.toNat = drive + 1) : Same s.execute t.execute := by
  have hdrive : drive < maxUnits := Nat.lt_of_lt_of_le hs.drive_lt (by decide)
  have haddr : addr < 2 ^ 16 := by
    rw [← hs.addr]
    exact Nat.lt_of_lt_of_le (le_lt _) (by simp)
  have hblock : block < 2 ^ 24 := by
    rw [← hs.block]
    exact Nat.lt_of_lt_of_le (le_lt _) (by simp)
  have hne : ¬unit = 0 := by
    rintro rfl
    exact absurd hunit (by simp)
  have hsp : t.execute = (t.clearStatus.blockCommand cmd drive block addr).reset := by
    rw [ht.block_standard hcmd haddr hblock, unitCommand, if_neg hne, hunit, Nat.add_sub_cancel]
  rw [hs.execute, hsp]
  have hrun := h.clearStatus.apply (blockCommand_buffer cmd drive block addr)
  split
  · rename_i hfile
    have hoff := blockCommand_offline (s := s.clearStatus) hdrive hfile cmd block addr
    rw [hoff] at hrun
    have hfail : Same (s.fail errorDeviceOffline) (s.clearStatus.fail errorDeviceOffline) :=
      ⟨rfl, rfl, rfl, rfl, rfl, rfl, rfl, rfl, rfl⟩
    exact (hfail.trans hrun).reset
  · have hcommand : s.clearStatus.driveCommand cmd drive block addr = s.clearStatus.blockCommand cmd drive block addr := by
      rcases hcmd with rfl | rfl | rfl <;> rfl
    rw [hcommand]
    exact hrun.reset

theorem prodos_status_online {drive addr block : Nat} {fp : Handle} {media : Descriptor}
    (h : s.ProDos 0 drive addr block) (hfile : (s.units drive).file = some fp)
    (hmedia : (s.units drive).media = some media) :
    Same (s.fail 0) s.execute ∧
      (media.blockCount ≠ 0x10000 →
        s.execute.status1.toNat + 256 * s.execute.status2.toNat = (s.driveStatus drive).1.2 % 0x10000) := by
  have hrun : s.execute = ({ s.clearStatus with
      status1 := BitVec.ofNat 8 media.blockCount, status2 := BitVec.ofNat 8 (media.blockCount / 256) }).reset := by
    have hmedia' : (s.clearStatus.units drive).media = some media := hmedia
    rw [h.execute, hfile, if_neg (Option.some_ne_none fp), driveCommand, if_pos rfl, hmedia']
  have hcount : (s.driveStatus drive).1.2 = if media.blockCount = 0x10000 then 0xFFFF else media.blockCount := by
    unfold driveStatus
    rw [hmedia]
    rfl
  rw [hrun, hcount]
  refine ⟨⟨rfl, rfl, rfl, rfl, rfl, rfl, rfl, rfl, rfl⟩, fun hne => ?_⟩
  show (BitVec.ofNat 8 media.blockCount).toNat + 256 * (BitVec.ofNat 8 (media.blockCount / 256)).toNat = _
  rw [if_neg hne, BitVec.toNat_ofNat, BitVec.toNat_ofNat]
  omega

theorem prodos_status_offline {drive addr block : Nat} (h : s.ProDos 0 drive addr block)
    (hoff : (s.units drive).file = none ∨ (s.units drive).media = none) :
    Same (s.fail errorDeviceOffline) s.execute := by
  rw [h.execute]
  split
  · exact same_reset _
  · rename_i hfile
    have hmedia : (s.clearStatus.units drive).media = none := hoff.resolve_left hfile
    rw [driveCommand, if_pos rfl, hmedia]
    exact ⟨rfl, rfl, rfl, rfl, rfl, rfl, rfl, rfl, rfl⟩

/-- A card in slot 5 with a volume of one block on its first drive, and requests in memory: a
read of the first unit and a status call for the second, each in both forms. -/
def bench (cmd : List Byte) : PDBlock3 where
  slot := 5
  units := fun u =>
    if u = 0 then { file := some ⟨0, 0, true⟩, media := some { filename := ['a'], blockSize := 512, blockCount := 1 } } else {}
  cmd := cmd
  index := cmd.length
  mem := fun a =>
    [0x01, 0x10, 0x03, 0, 0x41, 0x20, 0x03, 0x00, 0x00, 0x30, 0x03, 0, 0x40, 0x38, 0x03, 0x00,
      3, 1, 0x00, 0x20, 0, 0, 0, 0, 0, 0, 0, 0, 0, 0, 0, 0,
      3, 1, 0x00, 0x20, 0, 0, 0, 0, 0, 0, 0, 0, 0, 0, 0, 0,
      3, 2, 0x00, 0x20, 0, 0, 0, 0, 3, 2, 0x00, 0x20, 0, 0, 0].getD (a - 0x300) 0xFF
  disk := fun _ => List.replicate 512 7

/-- The claim as it was first made fails twice.  The extended status call stores a byte more, and
ProDOS is refused the status of an empty drive. -/
theorem forms_differ :
    (bench [2, 0x08, 0x03]).Calls 2 0 (statusList 2 3 2 0x2000 0) ∧
      (bench [2, 0x0C, 0x03]).Calls 3 0x40 (statusList 4 3 2 0x2000 0) ∧
      (bench [2, 0x08, 0x03]).execute.mem 0x2004 ≠ (bench [2, 0x0C, 0x03]).execute.mem 0x2004 ∧
      (bench [1, 0, 0xD0, 0, 0, 0, 0, 0xD1]).ProDos 0 1 0 0 ∧
      (bench [1, 0, 0xD0, 0, 0, 0, 0, 0xD1]).execute.error ≠ (bench [2, 0x08, 0x03]).execute.error := by
  refine ⟨⟨rfl, by decide +kernel, by unfold Holds; decide +kernel⟩,
    ⟨rfl, by decide +kernel, by unfold Holds; decide +kernel⟩, by decide +kernel, ?_, by decide +kernel⟩
  exact ⟨rfl, by decide, rfl, rfl, by decide, rfl, rfl⟩

/-- A request in one interface does what it does in the others: a block or status call in the extended form, and a
block command through ProDOS on the drive before the unit. -/
theorem commands_agree :
    (∀ {s t : PDBlock3} {cmd pcount pcount' unit : Byte} {addr block : Nat}, Same s t →
      (cmd = 1 ∨ cmd = 2 ∨ cmd = 3) → addr < 2 ^ 16 → block < 2 ^ 24 →
      s.Calls 2 cmd (blockList 2 3 pcount unit addr block) →
      t.Calls 3 (cmd ||| 0x40) (blockList 4 4 pcount' unit addr block) → Same s.execute t.execute) ∧
    (∀ {s t : PDBlock3} {code pcount pcount' unit : Byte} {ptr : Nat}, Same s t →
      (code = 0 ∨ code = 3) → ptr < 2 ^ 16 →
      s.Calls 2 0 (statusList 2 pcount unit ptr code) → t.Calls 3 0x40 (statusList 4 pcount' unit ptr code) →
      Answers unit ptr code s s.execute t.execute) ∧
    (∀ {s t : PDBlock3} {cmd pcount unit : Byte} {drive addr block : Nat}, Same s t →
      (cmd = 1 ∨ cmd = 2 ∨ cmd = 3) → unit.toNat = drive + 1 →
      s.ProDos cmd drive addr block → t.Calls 2 cmd (blockList 2 3 pcount unit addr block) →
      Same s.execute t.execute) ∧
    (∀ {s : PDBlock3} {drive addr block : Nat}, s.ProDos 0 drive addr block →
      (∀ {fp media}, (s.units drive).file = some fp → (s.units drive).media = some media →
        Same (s.fail 0) s.execute ∧
          (media.blockCount ≠ 0x10000 →
            s.execute.status1.toNat + 256 * s.execute.status2.toNat = (s.driveStatus drive).1.2 % 0x10000)) ∧
      ((s.units drive).file = none ∨ (s.units drive).media = none →
        Same (s.fail errorDeviceOffline) s.execute)) := by
  refine ⟨?_, ?_, ?_, ?_⟩
  · intro s t cmd pcount pcount' unit addr block h hcmd haddr hblock hs ht
    exact block_forms_agree h hs ht hcmd haddr hblock
  · intro s t code pcount pcount' unit ptr h hcode hptr hs ht
    exact status_forms_agree h hs ht hcode hptr
  · intro s t cmd pcount unit drive addr block h hcmd hunit hs ht
    exact prodos_agrees h hs ht hcmd hunit
  · intro s drive addr block h
    constructor
    · intro fp media hfile hmedia
      exact prodos_status_online h hfile hmedia
    · intro hoff
      exact prodos_status_offline h hoff

theorem commands_agree_bench :
    Same (bench [2, 0x00, 0x03]).execute (bench [2, 0x04, 0x03]).execute ∧
      Answers 2 0x2000 0 (bench [2, 0x08, 0x03]) (bench [2, 0x08, 0x03]).execute (bench [2, 0x0C, 0x03]).execute ∧
      Same (bench [1, 1, 0x50, 0, 0x20, 0, 0, 0x70]).execute (bench [2, 0x00, 0x03]).execute ∧
      (bench [1, 0, 0x50, 0, 0, 0, 0, 0x51]).execute.status1.toNat +
        256 * (bench [1, 0, 0x50, 0, 0, 0, 0, 0x51]).execute.status2.toNat = 1 := by
  have hread : (bench [2, 0x00, 0x03]).Calls 2 1 (blockList 2 3 3 1 0x2000 0) := by
    refine ⟨rfl, by decide +kernel, ?_⟩
    unfold Holds
    decide +kernel
  have hread' : (bench [2, 0x04, 0x03]).Calls 3 0x41 (blockList 4 4 3 1 0x2000 0) := by
    refine ⟨rfl, by decide +kernel, ?_⟩
    unfold Holds
    decide +kernel
  have hstatus : (bench [2, 0x08, 0x03]).Calls 2 0 (statusList 2 3 2 0x2000 0) := by
    refine ⟨rfl, by decide +kernel, ?_⟩
    unfold Holds
    decide +kernel
  have hstatus' : (bench [2, 0x0C, 0x03]).Calls 3 0x40 (statusList 4 3 2 0x2000 0) := by
    refine ⟨rfl, by decide +kernel, ?_⟩
    unfold Holds
    decide +kernel
  have hprodos : (bench [1, 1, 0x50, 0, 0x20, 0, 0, 0x70]).ProDos 1 0 0x2000 0 :=
    ⟨rfl, by decide, rfl, rfl, by decide, rfl, rfl⟩
  have hsame : ∀ cmd cmd', Same (bench cmd) (bench cmd') := fun _ _ => ⟨rfl, rfl, rfl, rfl, rfl, rfl, rfl, rfl, rfl⟩
  obtain ⟨hblock, hcount, hdrive, htold⟩ := commands_agree
  have hprodos' : (bench [1, 0, 0x50, 0, 0, 0, 0, 0x51]).ProDos 0 0 0 0 :=
    ⟨rfl, by decide, rfl, rfl, by decide, rfl, rfl⟩
  refine ⟨hblock (hsame _ _) (.inl rfl) (by decide) (by decide) hread hread',
    hcount (hsame _ _) (.inl rfl) (by decide) hstatus hstatus',
    hdrive (hsame _ _) (.inl rfl) rfl hprodos hread, ?_⟩
  exact ((htold hprodos').1 rfl rfl).2 (by decide)

end

end PDBlock3

end GSSquared.Block
