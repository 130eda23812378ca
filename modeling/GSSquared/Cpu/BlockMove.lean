/-
Block moves.
-/
import GSSquared.Cpu.PlainRam

set_option linter.all false

namespace GSSquared.Cpu

open Bits Dialogue

def copied (source dest : Nat → Nat) (mem : Memory) : Nat → Memory
  | 0 => mem
  | n + 1 => store (copied source dest mem n) (dest n) (copied source dest mem n (source n))

theorem copied_of_ne {source dest : Nat → Nat} {a : Nat} (mem : Memory) {n : Nat} (h : ∀ k, k < n → dest k ≠ a) :
    copied source dest mem n a = mem a := by
  induction n with
  | zero => rfl
  | succ n ih =>
    rw [copied, store_ne (Ne.symm (h n (Nat.lt_succ_self n)))]
    exact ih (fun k hk => h k (Nat.lt_succ_of_lt hk))

structure BlockMove where
  descending : Bool
  dest : Byte
  source : Byte

namespace BlockMove

variable (i : BlockMove)

def opcode : Byte := if i.descending then 0x44 else 0x54

def delta : Word := if i.descending then -1 else 1

structure At (s : State) (mem : Memory) : Prop where
  opcode : mem (s.codeAddress 0) = i.opcode
  dest : mem (s.codeAddress 1) = i.dest
  source : mem (s.codeAddress 2) = i.source

/-- The places of the copy `k`. -/
def sourceAt (s : State) (k : Nat) : Nat :=
  i.source.toNat * 0x10000 + (narrow (currentCore s).x16 (s.x + BitVec.ofNat 16 k * i.delta)).toNat

def destAt (s : State) (k : Nat) : Nat :=
  i.dest.toNat * 0x10000 + (narrow (currentCore s).x16 (s.y + BitVec.ofNat 16 k * i.delta)).toNat

/-- The processor after `k` of the copies: it has left the instruction when they are all made. -/
def after (s : State) (k : Nat) : State :=
  { s with
    a := s.a - BitVec.ofNat 16 k
    x := put (currentCore s).x16 s.x (s.x + BitVec.ofNat 16 k * i.delta)
    y := put (currentCore s).x16 s.y (s.y + BitVec.ofNat 16 k * i.delta)
    db := if k = 0 then s.db else i.dest
    pc := if k = s.a.toNat + 1 then s.pc + 3 else s.pc }

theorem decode_opcode (s : State) :
    decode (currentCore s) i.opcode = if i.descending then .mvp else .mvn := by
  unfold decode
  rw [if_pos (currentCore_ops s), opcode]
  cases i.descending <;> rfl

theorem after_zero (s : State) : i.after s 0 = s := by
  have hput : ∀ (wide : Bool) (r : Word), put wide r (r + BitVec.ofNat 16 0 * i.delta) = r := by
    intro wide r
    have hr : r + BitVec.ofNat 16 0 * i.delta = r := by simp
    rw [hr]
    cases wide with
    | true => rfl
    | false => exact word_ext (lo_put r r) (hi_put rfl r r)
  simp only [after, hput, if_true]
  simp

theorem narrow_put (wide : Bool) (r v : Word) : narrow wide (put wide r v) = narrow wide v := by
  cases wide with
  | true => rfl
  | false => simp only [narrow, Bool.false_eq_true, if_false, lo_put]

theorem put_next (wide : Bool) (r v d : Word) : put wide (put wide r v) (narrow wide v + d) = put wide r (v + d) := by
  cases wide with
  | true => rfl
  | false =>
    apply word_ext
    · rw [lo_put, lo_put, lo_add, lo_add, lo_narrow]
    · rw [hi_put rfl, hi_put rfl, hi_put rfl]

theorem next_index (r d : Word) (k : Nat) : r + BitVec.ofNat 16 k * d + d = r + BitVec.ofNat 16 (k + 1) * d := by
  rw [BitVec.ofNat_add]
  grind

/-- Where the processor is after the copy, with the opcode and the banks behind it. -/
def counted (dest : Byte) (s : State) : State :=
  { s with db := dest, a := s.a - 1, pc := if s.a ≠ 0 then s.pc - 3 else s.pc }

theorem bank_lt (bank : Byte) (w : Word) : (bank.toNat * 0x10000 + w.toNat) % 2 ^ 24 = bank.toNat * 0x10000 + w.toNat := by
  have := bank.isLt
  have := w.isLt
  omega

theorem inRam_moveMemory {t : Traits} {s : State} {mem : Memory} {dest source : Byte} (ht : t.has65816Ops = true)
    (hdest : mem (s.programBank s.pc) = dest) (hsource : mem (s.programBank (s.pc + 1)) = source) :
    InRam (moveMemory t) (s, mem) ⟨⟩
      (counted dest { s with pc := s.pc + 1 + 1 },
        store mem (dest.toNat * 0x10000 + (s.indexY t).toNat) (mem (source.toNat * 0x10000 + (s.indexX t).toNat))) := by
  have hbank : ∀ s : State, s.programAddress t = s.programBank s.pc := fun s => if_pos ht
  have hfirst : InRam (fetchPc t) (s, mem) dest ({ s with pc := s.pc + 1 }, mem) := by
    have h : InRam (fetchPc t) (s, mem) _ _ := inRam_fetchPc
    rwa [hbank, hdest] at h
  have hsecond : InRam (fetchPc t) ({ s with pc := s.pc + 1 }, mem) source ({ s with pc := s.pc + 1 + 1 }, mem) := by
    have h : InRam (fetchPc t) ({ s with pc := s.pc + 1 }, mem) _ _ := inRam_fetchPc
    rwa [hbank, show mem (State.programBank { s with pc := s.pc + 1 } (s.pc + 1)) = source from hsource] at h
  refine hfirst.bind (hsecond.bind (inRam_get (fun p => ?_)))
  have hread := inRam_busRead (source.toNat * 0x10000 + (s.indexX t).toNat) (x := ({ s with pc := s.pc + 1 + 1 }, mem))
  have hwrite : InRam (busWrite (dest.toNat * 0x10000 + (s.indexY t).toNat)
      (mem (source.toNat * 0x10000 + (s.indexX t).toNat))) ({ s with pc := s.pc + 1 + 1 }, mem) _ _ := inRam_busWrite _ _
  rw [bank_lt] at hread hwrite
  refine hread.bind (hwrite.bind ((inRam_modify fun _ => rfl).bind ?_))
  exact inRam_phantomReadIgn.bind (inRam_phantomReadIgn.bind (inRam_modify fun _ => rfl))

/-- Both directions' change of the indices. -/
def stepped (t : Traits) (d : Word) (s : State) : State := (s.setIndexX t (s.indexX t + d)).setIndexY t (s.indexY t + d)

theorem inRam_execute {t : Traits} {s : State} {mem : Memory} (ht : t.has65816Ops = true)
    (hdest : mem (s.programBank s.pc) = i.dest) (hsource : mem (s.programBank (s.pc + 1)) = i.source) :
    InRam (execute t (if i.descending then .mvp else .mvn)) (s, mem) ⟨⟩
      (stepped t i.delta (counted i.dest { s with pc := s.pc + 1 + 1 }),
        store mem (i.dest.toNat * 0x10000 + (s.indexY t).toNat)
          (mem (i.source.toNat * 0x10000 + (s.indexX t).toNat))) := by
  have hmove := inRam_moveMemory ht hdest hsource
  unfold delta
  cases i.descending with
  | true =>
    refine hmove.bind ?_
    have hsub : ∀ v : Word, v - 1 = v + -1 := fun v => BitVec.sub_eq_add_neg v 1
    simp only [hsub]
    exact inRam_modify fun _ => rfl
  | false => exact hmove.bind (inRam_modify fun _ => rfl)

theorem after_next {s : State} {k : Nat} (hk : k < s.a.toNat + 1) :
    stepped (currentCore s) i.delta (counted i.dest { i.after s k with pc := s.pc + 1 + 1 + 1 }) = i.after s (k + 1) := by
  have hlast : s.a - BitVec.ofNat 16 k ≠ 0 ↔ ¬ k + 1 = s.a.toNat + 1 := by
    have := s.a.isLt
    have hzero : (0 : Word).toNat = 0 := rfl
    rw [Ne, ← BitVec.toNat_inj, BitVec.toNat_sub, BitVec.toNat_ofNat, hzero]
    omega
  have hback : s.pc + 3 - 3 = s.pc := BitVec.add_sub_cancel s.pc 3
  have hon : s.pc + 1 + 1 + 1 = s.pc + 3 := by grind
  have hless : s.a - BitVec.ofNat 16 k - 1 = s.a - BitVec.ofNat 16 (k + 1) := by
    rw [BitVec.ofNat_add]
    grind
  have hindex : ∀ r : Word, put (currentCore s).x16 (put (currentCore s).x16 r (r + BitVec.ofNat 16 k * i.delta))
      (narrow (currentCore s).x16 (put (currentCore s).x16 r (r + BitVec.ofNat 16 k * i.delta)) + i.delta) =
        put (currentCore s).x16 r (r + BitVec.ofNat 16 (k + 1) * i.delta) := by
    intro r
    rw [narrow_put, put_next, next_index]
  simp only [stepped, counted, after, State.setIndexX, State.setIndexY, State.indexX, State.indexY, hindex, hless, hback,
    hon, hlast, Nat.succ_ne_zero, if_false, ite_not]

theorem inRam_next {s : State} {mem : Memory} (hcode : i.At s mem) {k : Nat} (hk : k < s.a.toNat + 1)
    (hsafe : ∀ n, n < s.a.toNat + 1 → ∀ j, j < 3 → i.destAt s n ≠ s.codeAddress j) :
    InRam instruction65816 (i.after s k, copied (i.sourceAt s) (i.destAt s) mem k) ⟨⟩
      (i.after s (k + 1), copied (i.sourceAt s) (i.destAt s) mem (k + 1)) := by
  have hkeep : ∀ j, j < 3 → copied (i.sourceAt s) (i.destAt s) mem k (s.codeAddress j) = mem (s.codeAddress j) :=
    fun j hj => copied_of_ne mem (fun n hn => hsafe n (Nat.lt_trans hn hk) j hj)
  have hpc : (i.after s k).pc = s.pc := if_neg (Nat.ne_of_lt hk)
  have hops := currentCore_ops s
  refine inRam_get (fun p => ?_)
  show InRam (instruction (currentCore s)) _ _ _
  have hfetch : InRam (fetchPc (currentCore s)) (i.after s k, copied (i.sourceAt s) (i.destAt s) mem k) _ _ :=
    inRam_fetchPc
  have hat : (i.after s k).programAddress (currentCore s) = s.codeAddress 0 := by
    rw [State.programAddress, if_pos hops, hpc, ← programAddress_eq s, State.programAddress, if_pos hops]
    rfl
  rw [hat, hkeep 0 (by decide), hcode.opcode] at hfetch
  refine hfetch.bind ?_
  rw [decode_opcode]
  have hcode1 : State.programBank { i.after s k with pc := (i.after s k).pc + 1 } ((i.after s k).pc + 1) = s.codeAddress 1 := by
    rw [hpc]
    rfl
  have hcode2 : State.programBank { i.after s k with pc := (i.after s k).pc + 1 } ((i.after s k).pc + 1 + 1) =
      s.codeAddress 2 := by
    rw [hpc, BitVec.add_assoc]
    rfl
  have hrun : InRam (execute (currentCore s) (if i.descending then .mvp else .mvn))
      ({ i.after s k with pc := (i.after s k).pc + 1 }, copied (i.sourceAt s) (i.destAt s) mem k) _ _ :=
    i.inRam_execute hops (by rw [hcode1, hkeep 1 (by decide), hcode.dest])
      (by rw [hcode2, hkeep 2 (by decide), hcode.source])
  have hsource : i.source.toNat * 0x10000 +
      (State.indexX (currentCore s) { i.after s k with pc := (i.after s k).pc + 1 }).toNat = i.sourceAt s k := by
    show i.source.toNat * 0x10000 + (narrow _ (put _ s.x _)).toNat = _
    rw [narrow_put]
    rfl
  have hdest : i.dest.toNat * 0x10000 +
      (State.indexY (currentCore s) { i.after s k with pc := (i.after s k).pc + 1 }).toNat = i.destAt s k := by
    show i.dest.toNat * 0x10000 + (narrow _ (put _ s.y _)).toNat = _
    rw [narrow_put]
    rfl
  rw [hsource, hdest] at hrun
  have hstate := i.after_next (s := s) (k := k) hk
  rw [← hpc] at hstate
  rw [hstate] at hrun
  exact hrun

theorem after_last (s : State) :
    i.after s (s.a.toNat + 1) = { s with
      a := 0xFFFF
      x := put (currentCore s).x16 s.x (s.x + BitVec.ofNat 16 (s.a.toNat + 1) * i.delta)
      y := put (currentCore s).x16 s.y (s.y + BitVec.ofNat 16 (s.a.toNat + 1) * i.delta)
      db := i.dest
      pc := s.pc + 3 } := by
  have hcount : s.a - BitVec.ofNat 16 (s.a.toNat + 1) = 0xFFFF := by
    rw [BitVec.ofNat_add, BitVec.ofNat_toNat, BitVec.setWidth_eq]
    grind
  simp only [after, hcount, Nat.succ_ne_zero, if_false, if_true]

/-- A block move makes as many copies as the accumulator says and one more, one after the other,
and is left with the indices behind them; before that the processor stays at it. -/
theorem blockMove_copies {s : State} {mem : Memory} (hcode : i.At s mem)
    (hsafe : ∀ n, n < s.a.toNat + 1 → ∀ j, j < 3 → i.destAt s n ≠ s.codeAddress j) :
    InRam (times (s.a.toNat + 1) instruction65816) (s, mem) ⟨⟩
        ({ s with
          a := 0xFFFF
          x := put (currentCore s).x16 s.x (s.x + BitVec.ofNat 16 (s.a.toNat + 1) * i.delta)
          y := put (currentCore s).x16 s.y (s.y + BitVec.ofNat 16 (s.a.toNat + 1) * i.delta)
          db := i.dest
          pc := s.pc + 3 }, copied (i.sourceAt s) (i.destAt s) mem (s.a.toNat + 1)) ∧
      ∀ k, k < s.a.toNat + 1 → (i.after s k).pc = s.pc ∧
        InRam (times k instruction65816) (s, mem) ⟨⟩ (i.after s k, copied (i.sourceAt s) (i.destAt s) mem k) := by
  have hrun : ∀ k, k ≤ s.a.toNat + 1 →
      InRam (times k instruction65816) (i.after s 0, copied (i.sourceAt s) (i.destAt s) mem 0) ⟨⟩
        (i.after s k, copied (i.sourceAt s) (i.destAt s) mem k) := by
    intro k hk
    exact leads_times (fun k => (i.after s k, copied (i.sourceAt s) (i.destAt s) mem k))
      (fun n hn => i.inRam_next hcode (Nat.lt_of_lt_of_le hn hk) hsafe)
  rw [after_zero] at hrun
  have hlast := hrun _ (Nat.le_refl _)
  rw [after_last] at hlast
  exact ⟨hlast, fun k hk => ⟨if_neg (Nat.ne_of_lt hk), hrun k (Nat.le_of_lt hk)⟩⟩

end BlockMove

/-- MVN at $2000, of the four bytes from $12FFFE on to $12FFFF: the first byte goes round the bank
through all of them. -/
def rollingMove : Memory :=
  fun a => if a = 0x2000 then 0x54 else if a = 0x2001 ∨ a = 0x2002 then 0x12 else if a = 0x12FFFE then 0xAA else 0

theorem blockMove_copies_rolling :
    let s : State := { pc := 0x2000, a := 3, x := 0xFFFE, y := 0xFFFF }
    let i : BlockMove := { descending := false, dest := 0x12, source := 0x12 }
    InRam (times 4 instruction65816) (s, rollingMove) ⟨⟩
        ({ s with a := 0xFFFF, x := 2, y := 3, db := 0x12, pc := 0x2003 },
          copied (i.sourceAt s) (i.destAt s) rollingMove 4) ∧
      copied (i.sourceAt s) (i.destAt s) rollingMove 4 0x120002 = 0xAA :=
  ⟨(BlockMove.blockMove_copies { descending := false, dest := 0x12, source := 0x12 }
    (s := { pc := 0x2000, a := 3, x := 0xFFFE, y := 0xFFFF })
    ⟨by decide, by decide, by decide⟩ (by decide)).1, by decide⟩

end GSSquared.Cpu
