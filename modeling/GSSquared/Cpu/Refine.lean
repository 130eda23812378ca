/-
The 65816 in emulation mode and the processors before it.
-/
import GSSquared.Cpu.Modes

set_option linter.all false

namespace GSSquared.Cpu

open Bits Dialogue

/-- The direct page and the data bank are at 0, and the index registers agree. -/
structure Alike (s s' : State) : Prop where
  d : s.d = 0
  db : s.db = 0
  x : lo s.x = lo s'.x
  y : lo s.y = lo s'.y

/-- What a run does on the bus apart from fetching the instruction's own bytes. -/
def isData (r : Request) : Bool := !r.isFetch

def accesses {α : Type} (m : Core α) (s : State) (as : Nat → Answer) : List Request :=
  ((m s).asked as).filter isData

def Mode.shared : Mode → Bool
  | .imm | .direct | .directX | .directY | .abs | .absX | .absY | .directInd | .directXInd | .directIndY => true
  | _ => false

def Mode.inBank (s : State) (as : Nat → Answer) : Mode → Prop
  | .absX => (word (as 0).data (as 1).data).toNat + (lo s.x).toNat ≤ 0xFFFF
  | .absY => (word (as 0).data (as 1).data).toNat + (lo s.y).toNat ≤ 0xFFFF
  | .directIndY => (word (as 1).data (as 2).data).toNat + (lo s.y).toNat ≤ 0xFFFF
  | _ => True

instance (s : State) (as : Nat → Answer) : (mode : Mode) → Decidable (mode.inBank s as)
  | .absX => inferInstanceAs (Decidable ((word (as 0).data (as 1).data).toNat + (lo s.x).toNat ≤ 0xFFFF))
  | .absY => inferInstanceAs (Decidable ((word (as 0).data (as 1).data).toNat + (lo s.y).toNat ≤ 0xFFFF))
  | .directIndY => inferInstanceAs (Decidable ((word (as 1).data (as 2).data).toNat + (lo s.y).toNat ≤ 0xFFFF))
  | .imm | .direct | .directX | .directY | .abs | .long | .longX | .directInd | .directXInd | .directIndLong
  | .directIndYLong | .stackRel | .stackRelY => instDecidableTrue

/-- The modes whose pointer's second byte may be across the end of the page. -/
def Mode.crosses (as : Nat → Answer) (mode : Mode) : Prop :=
  (mode = .directInd ∨ mode = .directIndY) ∧ (as 0).data = 0xFF

section

variable {α : Type} {s s' : State} {as : Nat → Answer}

/-- The program `m` of the one core does what `m'` of the other does. -/
abbrev Same (m m' : Core α) (s s' : State) (as : Nat → Answer) : Prop := Follows isData Alike m m' s s' as

theorem same_pure (h : Alike s s') (a : α) : Same (pure a) (pure a) s s' as := ⟨rfl, rfl, rfl, h⟩

theorem same_cycle (h : Alike s s') (r : Request) : Same (cycle r) (cycle r) s s' as := by
  refine ⟨?_, rfl, rfl, ⟨h.d, h.db, h.x, h.y⟩⟩
  rfl

theorem same_unit (h : Alike s s') (r : Request) :
    Same (do let _ ← cycle r : Core Unit) (do let _ ← cycle r) s s' as :=
  (same_cycle h r).bind (fun _ _ h => same_pure h ())

theorem same_busRead (h : Alike s s') (a : Nat) : Same (busRead a) (busRead a) s s' as := same_cycle h _

theorem same_busWrite (h : Alike s s') (a : Nat) (v : Byte) : Same (busWrite a v) (busWrite a v) s s' as :=
  same_unit h _

theorem same_phantomReadIgn (h : Alike s s') : Same phantomReadIgn phantomReadIgn s s' as := same_unit h _

theorem same_fetchPc (t t' : Traits) (h : Alike s s') : Same (fetchPc t) (fetchPc t') s s' as :=
  ⟨rfl, rfl, rfl, ⟨h.d, h.db, h.x, h.y⟩⟩

theorem same_readData (h : Alike s s') (a : Nat) : Same (readData false a) (readData false a) s s' as :=
  (same_busRead h a).bind (fun _ _ h => same_pure h _)

theorem same_writeData (h : Alike s s') (a : Nat) (v : Word) :
    Same (writeData false a v) (writeData false a v) s s' as :=
  (same_busWrite h a (lo v)).bind (fun _ _ h => same_pure h _)

theorem same_readDataDirect (h : Alike s s') (a : Word) :
    Same (readDataDirect false a) (readDataDirect false a) s s' as :=
  (same_busRead h a.toNat).bind (fun _ _ h => same_pure h _)

theorem same_writeDataDirect (h : Alike s s') (a v : Word) :
    Same (writeDataDirect false a v) (writeDataDirect false a v) s s' as :=
  (same_busWrite h a.toNat (lo v)).bind (fun _ _ h => same_pure h _)

theorem same_readImm (t t' : Traits) (h : Alike s s') : Same (readImm t false) (readImm t' false) s s' as :=
  (same_fetchPc t t' h).bind (fun _ _ h => same_pure h _)

theorem same_addressAbs (t t' : Traits) (h : Alike s s') : Same (addressAbs t) (addressAbs t') s s' as :=
  (same_fetchPc t t' h).bind (fun _ _ h => (same_fetchPc t t' h).bind (fun _ _ h => same_pure h _))

theorem same_then {β : Type} {m m' : Core α} (h : Same m m' s s' as) (k : α → Core β)
    (hk : ∀ a {u u' : State} {bs : Nat → Answer}, Alike u u' → Same (k a) (k a) u u' bs) :
    Same (m >>= k) (m' >>= k) s s' as := h.bind (fun _ _ hu => hk _ hu)

theorem same_congr {m n m' n' : Core α} (h : Same n n' s s' as) (hm : m s = n s) (hm' : m' s' = n' s') :
    Same m m' s s' as := by
  obtain ⟨h₁, h₂, h₃, h₄⟩ := h
  rw [← hm, ← hm'] at h₁ h₂ h₃ h₄
  exact ⟨h₁, h₂, h₃, h₄⟩

end

section

variable {s s' : State} {as : Nat → Answer} (v : Core6502)

theorem dataAddress_same (h : Alike s s') (a : Word) :
    dataAddress emulation s a = a.toNat ∧ dataAddress v.traits s' a = a.toNat := by
  constructor
  · simp [dataAddress, emulation, State.dataBank, h.db]
  · cases v <;> rfl

theorem same_dataAddress (h : Alike s s') (a : Word) :
    Same (do let s ← get; pure (dataAddress emulation s a)) (do let s ← get; pure (dataAddress v.traits s a)) s s' as := by
  obtain ⟨h₁, h₂⟩ := dataAddress_same v h a
  exact ⟨rfl, h₁.trans h₂.symm, rfl, h⟩

theorem same_absolute (h : Alike s s') : Same (absolute emulation) (absolute v.traits) s s' as :=
  (same_addressAbs _ _ h).bind (fun _ _ h => same_dataAddress v h _)

theorem same_index (h : Alike s s') :
    s.indexX emulation = (lo s.x).setWidth 16 ∧ s'.indexX v.traits = (lo s.x).setWidth 16 ∧
      s.indexY emulation = (lo s.y).setWidth 16 ∧ s'.indexY v.traits = (lo s.y).setWidth 16 := by
  refine ⟨rfl, ?_, rfl, ?_⟩
  · rw [h.x]
    cases v <;> rfl
  · rw [h.y]
    cases v <;> rfl

theorem same_indexed {m m' : Core Nat} (hm : Same m m' s s' as) (always : Bool) (index : Nat)
    (hsum : ((m s).result as).1 + index ≤ 0xFFFF) :
    Same (do let base ← m; indexPhantom emulation always base index; pure (indexed emulation base index))
      (do let base ← m'; indexPhantom v.traits always base index; pure (indexed v.traits base index)) s s' as := by
  refine hm.bind (fun u u' h => ?_)
  have hmod : indexed v.traits ((m s).result as).1 index = indexed emulation ((m s).result as).1 index := by
    have hlt := Nat.mod_eq_of_lt (Nat.lt_succ_of_le hsum)
    cases v <;> exact hlt
  have hphantom : indexPhantom v.traits always ((m s).result as).1 index =
      indexPhantom emulation always ((m s).result as).1 index := by
    unfold indexPhantom
    rw [hmod]
    cases v <;> rfl
  rw [hmod, hphantom]
  have hsame : Same (indexPhantom emulation always ((m s).result as).1 index)
      (indexPhantom emulation always ((m s).result as).1 index) u u' ((m s).rest as) := by
    unfold indexPhantom
    rw [if_neg (by decide)]
    split
    · exact same_unit h _
    · exact same_pure h ()
  exact hsame.bind (fun _ _ h => same_pure h _)

theorem zero_or_word (w : Word) : 0 ||| w = w := BitVec.zero_or

theorem directPenalty_zero (h : Alike s s') : directPenalty s = pure () :=
  if_neg (not_not_intro (by rw [h.d]; rfl))

theorem same_addressDirect (h : Alike s s') : Same (addressDirect emulation) (addressDirect v.traits) s s' as := by
  refine (same_fetchPc _ _ h).bind (fun u u' h => ?_)
  generalize ((fetchPc emulation s).result as).1 = operand
  refine same_congr (same_pure h (operand.setWidth 16)) ?_ ?_
  · show (do
        directPenalty u
        pure (if emulation.eMode = true ∧ lo u.d = 0 then u.d ||| operand.setWidth 16 else _) : Core Word) u = _
    rw [directPenalty_zero h, h.d, if_pos ⟨rfl, rfl⟩, zero_or_word]
    rfl
  · cases v <;> rfl

theorem same_addressDirectX (h : Alike s s') (index : Byte) :
    Same (addressDirectX emulation (index.setWidth 16)) (addressDirectX v.traits (index.setWidth 16)) s s' as := by
  refine (same_fetchPc _ _ h).bind (fun u u' h => ?_)
  generalize ((fetchPc emulation s).result as).1 = operand
  have hrest : Same (do phantomReadIgn; pure ((operand + lo (index.setWidth 16)).setWidth 16))
      (do phantomReadIgn; pure ((operand + lo (index.setWidth 16)).setWidth 16)) u u' ((fetchPc emulation s).rest as) :=
    (same_phantomReadIgn h).bind (fun _ _ h => same_pure h _)
  refine same_congr hrest ?_ ?_
  · show (do
        directPenalty u
        phantomReadIgn
        pure (if emulation.eMode = true ∧ lo u.d = 0 then u.d ||| (operand + lo (index.setWidth 16)).setWidth 16
          else _) : Core Word) u = _
    rw [directPenalty_zero h, h.d, if_pos ⟨rfl, rfl⟩, zero_or_word]
    rfl
  · cases v <;> rfl

theorem same_addressDirectXInd (h : Alike s s') (index : Byte) :
    Same (addressDirectXInd emulation (index.setWidth 16)) (addressDirectXInd v.traits (index.setWidth 16))
      s s' as := by
  refine (same_addressDirectX v h index).bind (fun u u' h => ?_)
  generalize ((addressDirectX emulation (index.setWidth 16) s).result as).1 = pointer
  have hhi : directXIndHi emulation u pointer = nextInPage pointer := if_neg (by rw [h.d]; decide)
  have hhi' : directXIndHi v.traits u' pointer = nextInPage pointer := by cases v <;> rfl
  have hrest : Same (do
        let l ← busRead pointer.toNat
        let h ← busRead (nextInPage pointer).toNat
        let s ← get
        pure (dataAddress emulation s (word l h))) (do
        let l ← busRead pointer.toNat
        let h ← busRead (nextInPage pointer).toNat
        let s ← get
        pure (dataAddress v.traits s (word l h))) u u' ((addressDirectX emulation (index.setWidth 16) s).rest as) :=
    (same_busRead h _).bind (fun _ _ h => (same_busRead h _).bind (fun _ _ h => same_dataAddress v h _))
  refine same_congr hrest ?_ ?_
  · rw [← hhi]
    rfl
  · rw [← hhi']
    cases v <;> rfl

theorem addressDirect_value (h : Alike s s') :
    ((addressDirect emulation s).result as).1 = ((as 0).data).setWidth 16 ∧
      ((addressDirect v.traits s').result as).1 = ((as 0).data).setWidth 16 := by
  have hv : ((addressDirect v.traits s').result as).1 = ((as 0).data).setWidth 16 := by cases v <;> rfl
  exact ⟨(same_addressDirect v h).value.trans hv, hv⟩

theorem nextInPage_operand : ∀ operand : Byte,
    operand ≠ 0xFF → nextInPage (operand.setWidth 16) = operand.setWidth 16 + 1 := by decide +kernel

theorem same_addressDirectIndirect (h : Alike s s') (hoperand : (as 0).data ≠ 0xFF) :
    Same (addressDirectIndirect emulation) (addressDirectIndirect v.traits) s s' as := by
  refine Follows.bind ?_ (fun _ _ h => same_dataAddress v h _)
  refine (same_addressDirect v h).bind (fun u u' h' => ?_)
  rw [(addressDirect_value v h).1]
  have hhi : directIndHi emulation u (((as 0).data).setWidth 16) = ((as 0).data).setWidth 16 + 1 := by
    rw [directIndHi, if_pos ⟨rfl, rfl, by rw [h'.d]; rfl⟩]
    exact nextInPage_operand _ hoperand
  have hhi' : directIndHi v.traits u' (((as 0).data).setWidth 16) = ((as 0).data).setWidth 16 + 1 := by
    cases v <;> rfl
  have hrest : Same (do
        let l ← busRead (((as 0).data).setWidth 16 : Word).toNat
        let h ← busRead (((as 0).data).setWidth 16 + 1 : Word).toNat
        pure (word l h)) (do
        let l ← busRead (((as 0).data).setWidth 16 : Word).toNat
        let h ← busRead (((as 0).data).setWidth 16 + 1 : Word).toNat
        pure (word l h)) u u' ((addressDirect emulation s).rest as) :=
    (same_busRead h' _).bind (fun _ _ h => (same_busRead h _).bind (fun _ _ h => same_pure h _))
  refine same_congr hrest ?_ ?_
  · rw [← hhi]
    rfl
  · rw [← hhi']
    rfl

omit v in
theorem absolute_value (h : Alike s s') :
    ((absolute emulation s).result as).1 = (word (as 0).data (as 1).data).toNat :=
  (same_absolute .cmos h).value.trans rfl

omit v in
theorem addressDirectIndirect_value (h : Alike s s') (hoperand : (as 0).data ≠ 0xFF) :
    ((addressDirectIndirect emulation s).result as).1 = (word (as 1).data (as 2).data).toNat :=
  (same_addressDirectIndirect .cmos h hoperand).value.trans rfl

theorem toNat_index (index : Byte) : (index.setWidth 16 : Word).toNat = index.toNat :=
  BitVec.toNat_setWidth_of_le (by decide)

theorem same_absIndexed (h : Alike s s') (always : Bool) (index : Byte)
    (hsum : (word (as 0).data (as 1).data).toNat + index.toNat ≤ 0xFFFF) :
    Same (do
        let base ← absolute emulation
        indexPhantom emulation always base (index.setWidth 16 : Word).toNat
        pure (indexed emulation base (index.setWidth 16 : Word).toNat)) (do
        let base ← absolute v.traits
        indexPhantom v.traits always base (index.setWidth 16 : Word).toNat
        pure (indexed v.traits base (index.setWidth 16 : Word).toNat)) s s' as := by
  refine same_indexed v (same_absolute v h) always _ ?_
  rwa [absolute_value h, toNat_index]

theorem same_pointerIndexed (h : Alike s s') (hoperand : (as 0).data ≠ 0xFF) (always : Bool) (index : Byte)
    (hsum : (word (as 1).data (as 2).data).toNat + index.toNat ≤ 0xFFFF) :
    Same (do
        let base ← addressDirectIndirect emulation
        indexPhantom emulation always base (index.setWidth 16 : Word).toNat
        pure (indexed emulation base (index.setWidth 16 : Word).toNat)) (do
        let base ← addressDirectIndirect v.traits
        indexPhantom v.traits always base (index.setWidth 16 : Word).toNat
        pure (indexed v.traits base (index.setWidth 16 : Word).toNat)) s s' as := by
  refine same_indexed v (same_addressDirectIndirect v h hoperand) always _ ?_
  rwa [addressDirectIndirect_value h hoperand, toNat_index]

theorem same_read (h : Alike s s') {mode : Mode} (hmode : mode.shared = true) (hbank : mode.inBank s as)
    (hcross : ¬ mode.crosses as) : Same (mode.read emulation false) (mode.read v.traits false) s s' as := by
  obtain ⟨-, hx', -, hy'⟩ := same_index v h
  have hdata := fun {m m' : Core Nat} (hm : Same m m' s s' as) =>
    same_then hm (fun a => readData false a) (fun a _ _ _ h => same_readData h a)
  have hdirect := fun {m m' : Core Word} (hm : Same m m' s s' as) =>
    same_then hm (fun a => readDataDirect false a) (fun a _ _ _ h => same_readDataDirect h a)
  cases mode with
  | imm => exact same_readImm _ _ h
  | direct => exact hdirect (same_addressDirect v h)
  | directX =>
    refine same_congr (hdirect (same_addressDirectX v h (lo s.x))) ?_ ?_
    · rfl
    · rw [← hx']
      rfl
  | directY =>
    refine same_congr (hdirect (same_addressDirectX v h (lo s.y))) ?_ ?_
    · rfl
    · rw [← hy']
      rfl
  | abs => exact hdata (same_absolute v h)
  | absX =>
    refine same_congr (hdata (same_absIndexed v h false (lo s.x) hbank)) ?_ ?_
    · rfl
    · rw [← hx']
      rfl
  | absY =>
    refine same_congr (hdata (same_absIndexed v h false (lo s.y) hbank)) ?_ ?_
    · rfl
    · rw [← hy']
      rfl
  | directInd =>
    have hoperand : (as 0).data ≠ 0xFF := fun hop => hcross ⟨.inl rfl, hop⟩
    exact hdata (same_addressDirectIndirect v h hoperand)
  | directXInd =>
    refine same_congr (hdata (same_addressDirectXInd v h (lo s.x))) ?_ ?_
    · rfl
    · rw [← hx']
      rfl
  | directIndY =>
    have hoperand : (as 0).data ≠ 0xFF := fun hop => hcross ⟨.inr rfl, hop⟩
    refine same_congr (hdata (same_pointerIndexed v h hoperand false (lo s.y) hbank)) ?_ ?_
    · rfl
    · rw [← hy']
      rfl
  | _ => cases hmode

theorem same_write (h : Alike s s') (w : Word) {mode : Mode} (hmode : mode.shared = true) (hbank : mode.inBank s as)
    (hcross : ¬ mode.crosses as) : Same (mode.write emulation false w) (mode.write v.traits false w) s s' as := by
  obtain ⟨-, hx', -, hy'⟩ := same_index v h
  have hdata := fun {m m' : Core Nat} (hm : Same m m' s s' as) =>
    same_then hm (fun a => writeData false a w) (fun a _ _ _ h => same_writeData h a w)
  have hdirect := fun {m m' : Core Word} (hm : Same m m' s s' as) =>
    same_then hm (fun a => writeDataDirect false a w) (fun a _ _ _ h => same_writeDataDirect h a w)
  cases mode with
  | imm => exact same_pure h ()
  | direct => exact hdirect (same_addressDirect v h)
  | directX =>
    refine same_congr (hdirect (same_addressDirectX v h (lo s.x))) ?_ ?_
    · rfl
    · rw [← hx']
      rfl
  | directY =>
    refine same_congr (hdirect (same_addressDirectX v h (lo s.y))) ?_ ?_
    · rfl
    · rw [← hy']
      rfl
  | abs => exact hdata (same_absolute v h)
  | absX =>
    refine same_congr (hdata (same_absIndexed v h true (lo s.x) hbank)) ?_ ?_
    · rfl
    · rw [← hx']
      rfl
  | absY =>
    refine same_congr (hdata (same_absIndexed v h true (lo s.y) hbank)) ?_ ?_
    · rfl
    · rw [← hy']
      rfl
  | directInd =>
    have hoperand : (as 0).data ≠ 0xFF := fun hop => hcross ⟨.inl rfl, hop⟩
    exact hdata (same_addressDirectIndirect v h hoperand)
  | directXInd =>
    refine same_congr (hdata (same_addressDirectXInd v h (lo s.x))) ?_ ?_
    · rfl
    · rw [← hx']
      rfl
  | directIndY =>
    have hoperand : (as 0).data ≠ 0xFF := fun hop => hcross ⟨.inr rfl, hop⟩
    refine same_congr (hdata (same_pointerIndexed v h hoperand true (lo s.y) hbank)) ?_ ?_
    · rfl
    · rw [← hy']
      rfl
  | _ => cases hmode

omit v in
theorem accesses_bind {α β : Type} (m : Core α) (k : α → Core β) :
    accesses (m >>= k) s as =
      accesses m s as ++ accesses (k ((m s).result as).1) ((m s).result as).2 ((m s).rest as) := by
  rw [accesses, asked_bind_state, List.filter_append]
  rfl

omit v in
theorem prefix_bind {α β : Type} {l : List Request} {m : Core α} (h : l <+: accesses m s as) (k : α → Core β) :
    l <+: accesses (m >>= k) s as := by
  rw [accesses_bind]
  exact h.trans (List.prefix_append _ _)

theorem directPointer_accesses (h : Alike s s') (hoperand : (as 0).data = 0xFF) :
    accesses (directPointer emulation) s as = [.read .read 0xFF, .read .read 0x00] ∧
      accesses (directPointer v.traits) s' as = [.read .read 0xFF, .read .read 0x100] := by
  constructor
  · have hdirect : Same (addressDirect emulation) (addressDirect Core6502.cmos.traits) s s' as :=
      same_addressDirect .cmos h
    have hnone : accesses (addressDirect emulation) s as = [] := hdirect.asked.trans rfl
    have hd := hdirect.state.d
    rw [directPointer, accesses_bind, hnone, (addressDirect_value .cmos h).1, hoperand, List.nil_append]
    show [Request.read .read _, .read .read ((directIndHi emulation ((addressDirect emulation s).result as).2 _).toNat % 2 ^ 24)] = _
    rw [directIndHi, if_pos ⟨rfl, rfl, by rw [hd]; rfl⟩]
    decide
  · have hshape : accesses (directPointer v.traits) s' as =
        [.read .read (((as 0).data.setWidth 16 : Word).toNat % 2 ^ 24),
          .read .read (((as 0).data.setWidth 16 + 1 : Word).toNat % 2 ^ 24)] := by
      cases v <;> rfl
    rw [hshape, hoperand]
    decide

theorem pointer_differs {l l' : List Request} (h : [.read .read 0xFF, .read .read 0x00] <+: l)
    (h' : [.read .read 0xFF, .read .read 0x100] <+: l') : l ≠ l' := by
  intro heq
  have h₂ : [.read .read 0xFF, .read .read 0x100] <+: l := heq ▸ h'
  have hpre := List.prefix_of_prefix_length_le h h₂ (Nat.le_refl 2)
  revert hpre
  decide

omit v in
theorem prefix_mode {t : Traits} {l : List Request} (h : accesses (directPointer t) s as = l) {mode : Mode}
    (hmode : mode = .directInd ∨ mode = .directIndY) (w : Word) :
    l <+: accesses (mode.read t false) s as ∧ l <+: accesses (mode.write t false w) s as := by
  have hind : l <+: accesses (addressDirectIndirect t) s as := prefix_bind (h ▸ List.prefix_refl _) _
  rcases hmode with rfl | rfl
  · exact ⟨prefix_bind hind _, prefix_bind hind _⟩
  · have hread : l <+: accesses (addressDirectIndX t (s.indexY t)) s as := prefix_bind hind _
    have hwrite : l <+: accesses (addressDirectIndXWrite t (s.indexY t)) s as := prefix_bind hind _
    exact ⟨prefix_bind hread (fun a => readData false a), prefix_bind hwrite (fun a => writeData false a w)⟩

theorem crosses_differs (h : Alike s s') {mode : Mode} (hcross : mode.crosses as) (w : Word) :
    accesses (mode.read emulation false) s as ≠ accesses (mode.read v.traits false) s' as ∧
      accesses (mode.write emulation false w) s as ≠ accesses (mode.write v.traits false w) s' as := by
  obtain ⟨hmode, hoperand⟩ := hcross
  obtain ⟨hp, hp'⟩ := directPointer_accesses v h hoperand
  have hpre := prefix_mode hp hmode w
  have hpre' := prefix_mode hp' hmode w
  exact ⟨pointer_differs hpre.1 hpre'.1, pointer_differs hpre.2 hpre'.2⟩

end

/-- With direct page and data bank at 0 and the sum in bank 0, emulation mode touches the addresses that the older
cores do exactly when the mode is not one whose pointer crosses the page. -/
theorem emulation_refines (v : Core6502) (mode : Mode) (s s' : State) (as : Nat → Answer) (w : Word)
    (hmode : mode.shared = true) (h : Alike s s') (hbank : mode.inBank s as) :
    (accesses (mode.read emulation false) s as = accesses (mode.read v.traits false) s' as ↔
        ¬ mode.crosses as) ∧
      (accesses (mode.write emulation false w) s as = accesses (mode.write v.traits false w) s' as ↔
        ¬ mode.crosses as) := by
  refine ⟨⟨fun heq hcross => ?_, fun hcross => ?_⟩, fun heq hcross => ?_, fun hcross => ?_⟩
  · exact (crosses_differs v h hcross w).1 heq
  · exact (same_read v h hmode hbank hcross).asked
  · exact (crosses_differs v h hcross w).2 heq
  · exact (same_write v h w hmode hbank hcross).asked

/-- `LDA $1010,X` with X at 5. -/
theorem emulation_refines_absX :
    let as : Nat → Answer := fun _ => { data := 0x10 }
    (accesses (Mode.read emulation false .absX) { x := 5 } as = accesses (Mode.read cpu6502 false .absX) { x := 5 } as ↔
        ¬ Mode.crosses as .absX) ∧
      (accesses (Mode.write emulation false 0 .absX) { x := 5 } as =
          accesses (Mode.write cpu6502 false 0 .absX) { x := 5 } as ↔ ¬ Mode.crosses as .absX) :=
  emulation_refines .nmos .absX { x := 5 } { x := 5 } (fun _ => { data := 0x10 }) 0 rfl ⟨rfl, rfl, rfl, rfl⟩ (by decide)

/-- `LDA ($FF),Y` takes the second byte of its pointer from elsewhere. -/
theorem pointer_crosses_page :
    ¬ ∀ (v : Core6502) (mode : Mode) (s s' : State) (as : Nat → Answer), mode.shared = true → Alike s s' →
      mode.inBank s as → accesses (mode.read emulation false) s as = accesses (mode.read v.traits false) s' as := by
  intro h
  have heq := h .nmos .directIndY {} {} (fun _ => { data := 0xFF }) rfl ⟨rfl, rfl, rfl, rfl⟩ (by decide)
  revert heq
  decide +kernel

end GSSquared.Cpu
