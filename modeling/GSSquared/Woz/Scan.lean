/-
The sector scan of the two exporters.
-/
import GSSquared.Woz.Cursor

set_option linter.all false

namespace GSSquared.Woz

open Bits

/-- The last three nibbles read, `n2`, `n1`, `n0` (or `d2`, `d1`, `d0`). -/
structure Window where
  n2 : Byte := 0
  n1 : Byte := 0
  n0 : Byte := 0
deriving DecidableEq

def Window.push (w : Window) (nib : Byte) : Window := { n2 := w.n1, n1 := w.n0, n0 := nib }

theorem Window.push_ne {w p : Window} {nib : Byte} (h : nib ≠ p.n0) : w.push nib ≠ p :=
  fun he => h (congrArg Window.n0 he)

def addressPrologue : Window := { n2 := 0xD5, n1 := 0xAA, n0 := 0x96 }

def dataPrologue : Window := { n2 := 0xD5, n1 := 0xAA, n0 := 0xAD }

def huntData (trk : Track) (limit : Nat) :
    Nat → Window → BitCursor → Except Fault (Bool × BitCursor)
  | 0, _, _ => .error .endless
  | fuel + 1, d, c =>
    if c.consumed < limit then do
      let (nib, c) ← readNibble trk c
      if d.push nib = dataPrologue then .ok (true, c) else huntData trk limit fuel (d.push nib) c
    else .ok (false, c)

/-- What a disk format calls an address and a sector.  `address` and `data` are
`none` where the source drops the field: a bad checksum, a sector number out of
range, a nibble outside the code. -/
structure Format (α β : Type) where
  addrLen : Nat
  address : List Byte → Option α
  dataLen : Nat
  data : List Byte → Option β

section

variable {α β σ : Type} (fmt : Format α β) (trk : Track)

/-- The loop body once the address prologue has been seen: the field, or `none`
where the source resets its window and goes on. -/
def readField (c : BitCursor) : Except Fault (Option (α × β) × BitCursor) := do
  let (e, c) ← readNibbles trk fmt.addrLen c
  match fmt.address e with
  | none => .ok (none, c)
  | some addr =>
    -- the address epilogue is skipped, its values are not checked
    let (_, c) ← readNibbles trk 3 c
    let (got, c) ← huntData trk (c.consumed + 64 * 8) (64 * 8 + 1) {} c
    if got then
      let (ns, c) ← readNibbles trk fmt.dataLen c
      match fmt.data ns with
      | none => .ok (none, c)
      | some sector => .ok (some (addr, sector), c)
    else .ok (none, c)

/-- The loop of `decode_track`. -/
def scan (done : σ → Bool) (store : α → β → σ → Except Fault σ) (maxBits : Nat) :
    Nat → Window → BitCursor → σ → Except Fault σ
  | 0, _, _, st => if done st then .ok st else .error .endless
  | fuel + 1, w, c, st =>
    if done st then .ok st
    else if c.consumed < maxBits then do
      let (nib, c) ← readNibble trk c
      if w.push nib = addressPrologue then
        let (field, c) ← readField fmt trk c
        match field with
        | none => scan done store maxBits fuel {} c st
        | some (addr, sector) =>
          let st ← store addr sector st
          scan done store maxBits fuel {} c st
      else scan done store maxBits fuel (w.push nib) c st
    else .ok st

/-- The fields the loop comes to when it is never done, and how it ends: `none`
for two revolutions, or the fault that stops it. -/
def met (maxBits : Nat) : Nat → Window → BitCursor → List (α × β) × Option Fault
  | 0, _, _ => ([], some .endless)
  | fuel + 1, w, c =>
    if c.consumed < maxBits then
      match readNibble trk c with
      | .error e => ([], some e)
      | .ok (nib, c) =>
        if w.push nib = addressPrologue then
          match readField fmt trk c with
          | .error e => ([], some e)
          | .ok (none, c) => met maxBits fuel {} c
          | .ok (some field, c) =>
            let (fields, fin) := met maxBits fuel {} c
            (field :: fields, fin)
        else met maxBits fuel (w.push nib) c
    else ([], none)

def storeUntil (done : σ → Bool) (store : α → β → σ → Except Fault σ) :
    σ → List (α × β) → Except Fault σ
  | st, [] => .ok st
  | st, (addr, sector) :: rest =>
    if done st then .ok st
    else do
      let st ← store addr sector st
      storeUntil done store st rest

variable (done : σ → Bool) (store : α → β → σ → Except Fault σ)

theorem storeUntil_done {st : σ} (h : done st = true) (fields : List (α × β)) :
    storeUntil done store st fields = .ok st := by
  cases fields with
  | nil => rfl
  | cons field rest => exact if_pos h

theorem storeUntil_append (st : σ) (xs ys : List (α × β)) :
    storeUntil done store st (xs ++ ys) =
      (storeUntil done store st xs >>= fun st => storeUntil done store st ys) := by
  induction xs generalizing st with
  | nil => rfl
  | cons field xs ih =>
    by_cases hdone : done st = true
    · rw [storeUntil_done done store hdone, storeUntil_done done store hdone, ok_bind,
        storeUntil_done done store hdone]
    · simp only [List.cons_append, storeUntil, if_neg hdone]
      cases hstore : store field.1 field.2 st with
      | error e => rfl
      | ok st' => exact ih st'

def finish (fin : Option Fault) (st : σ) : Except Fault σ :=
  if done st then .ok st
  else
    match fin with
    | none => .ok st
    | some e => .error e

theorem finish_done {st : σ} (h : done st = true) (fin : Option Fault) :
    finish done fin st = .ok st := if_pos h

theorem scan_eq (maxBits : Nat) :
    ∀ (fuel : Nat) (w : Window) (c : BitCursor) (st : σ),
      scan fmt trk done store maxBits fuel w c st =
        (storeUntil done store st (met fmt trk maxBits fuel w c).1 >>=
          finish done (met fmt trk maxBits fuel w c).2) := by
  intro fuel
  induction fuel with
  | zero => intro w c st; rfl
  | succ fuel ih =>
    intro w c st
    by_cases hdone : done st = true
    · rw [storeUntil_done done store hdone, ok_bind, finish_done done hdone, scan, if_pos hdone]
    · rw [scan, met, if_neg hdone]
      by_cases hlt : c.consumed < maxBits
      · rw [if_pos hlt, if_pos hlt]
        cases hread : readNibble trk c with
        | error e => simp [storeUntil, finish, hdone]
        | ok r =>
          obtain ⟨nib, c₁⟩ := r
          simp only [ok_bind]
          by_cases hw : w.push nib = addressPrologue
          · rw [if_pos hw, if_pos hw]
            cases hfield : readField fmt trk c₁ with
            | error e => simp [storeUntil, finish, hdone]
            | ok r =>
              obtain ⟨field, c₂⟩ := r
              cases field with
              | none => exact ih {} c₂ st
              | some field =>
                obtain ⟨addr, sector⟩ := field
                simp only [ok_bind, storeUntil, if_neg hdone]
                cases hstore : store addr sector st with
                | error e => rfl
                | ok st' => exact ih {} c₂ st'
          · rw [if_neg hw, if_neg hw]
            exact ih (w.push nib) c₁ st
      · rw [if_neg hlt, if_neg hlt]
        simp [storeUntil, finish, hdone]

/-! ## Scanning known nibbles

Where the nibbles ahead are known, so are the fields: a gap without an address
mark is passed over, and a well-formed field is met. -/

theorem Ahead.consumed_lt {trk : Track} {c : BitCursor} {cells : List Bool} (h : Ahead trk c cells)
    (hne : cells ≠ []) : c.consumed < 2 * trk.bitCount := by
  obtain ⟨front, bs, hh, hsplit, -, -, hcons⟩ := h.split
  have hlen := congrArg List.length hsplit
  have hpos := List.length_pos_iff.mpr hne
  simp only [List.length_append] at hlen
  rw [hh.count]
  omega

theorem NibsAhead.consumed_lt {trk : Track} {c : BitCursor} {z : Nat} {n : Nib} {ns : List Nib}
    {tail : List Bool} (h : NibsAhead trk c z (n :: ns) tail) : c.consumed < 2 * trk.bitCount := by
  refine Ahead.consumed_lt h (fun hnil => ?_)
  have := congrArg List.length hnil
  rw [nibCells_cons, Nib.cells_eq] at this
  simp at this

theorem huntData_gap {ms : List Nib} {tail : List Bool} {limit : Nat} :
    ∀ (gap : List Nib) {fuel : Nat} {d : Window} {c : BitCursor} {z : Nat},
      NibsAhead trk c z (gap ++ ms) tail → z ≤ 2 →
      (∀ n ∈ gap, n.value.msb = true ∧ n.value ≠ 0xAD) →
      c.consumed + 10 * gap.length + z ≤ limit →
      ∃ d' c', huntData trk limit (fuel + gap.length) d c = huntData trk limit fuel d' c' ∧
        NibsAhead trk c' (trailOf z gap) ms tail ∧
        c'.consumed ≤ c.consumed + 10 * gap.length + z := by
  intro gap
  induction gap with
  | nil =>
    intro fuel d c z h _ _ _
    exact ⟨d, c, rfl, h, by simp⟩
  | cons n gap ih =>
    intro fuel d c z h hz hgap hlimit
    obtain ⟨hmsb, hne⟩ := hgap n List.mem_cons_self
    obtain ⟨c₁, hread, h₁, hc₁⟩ := h.readNibble hz hmsb
    have ht := n.trail_le
    rw [List.length_cons] at hlimit
    obtain ⟨d', c', hhunt, h', hc'⟩ := @ih fuel (d.push n.value) c₁ n.trail h₁ ht
      (fun m hm => hgap m (List.mem_cons_of_mem n hm)) (by omega)
    refine ⟨d', c', ?_, h', by rw [List.length_cons]; omega⟩
    have hpush : d.push n.value ≠ dataPrologue := Window.push_ne hne
    rw [← hhunt, List.length_cons, ← Nat.add_assoc, huntData, if_pos (by omega), hread, ok_bind]
    exact if_neg hpush

theorem huntData_prologue {ns : List Nib} {tail : List Bool} {limit fuel : Nat} {d : Window}
    {c : BitCursor} {z : Nat}
    (h : NibsAhead trk c z (.data 0xD5 :: .data 0xAA :: .data 0xAD :: ns) tail) (hz : z ≤ 2)
    (hlimit : c.consumed + 32 ≤ limit) :
    ∃ c', huntData trk limit (fuel + 3) d c = .ok (true, c') ∧ NibsAhead trk c' 0 ns tail := by
  obtain ⟨c₁, hr₁, h₁, hc₁⟩ := h.readNibble hz (by decide)
  obtain ⟨c₂, hr₂, h₂, hc₂⟩ := h₁.readNibble (by decide) (by decide)
  obtain ⟨c₃, hr₃, h₃, hc₃⟩ := h₂.readNibble (by decide) (by decide)
  simp only [Nib.trail] at hc₁ hc₂ hc₃
  refine ⟨c₃, ?_, h₃⟩
  have hw₁ : d.push 0xD5 ≠ dataPrologue := Window.push_ne (by decide)
  have hw₂ : (d.push 0xD5).push 0xAA ≠ dataPrologue := Window.push_ne (by decide)
  rw [huntData, if_pos (by omega), hr₁, ok_bind]
  show (if d.push 0xD5 = dataPrologue then _ else _) = _
  rw [if_neg hw₁, huntData, if_pos (by omega), hr₂, ok_bind]
  show (if (d.push 0xD5).push 0xAA = dataPrologue then _ else _) = _
  rw [if_neg hw₂, huntData, if_pos (by omega), hr₃, ok_bind]
  exact if_pos rfl

structure FieldNibs where
  address : List Byte
  epilogue : List Byte
  gap : List Nib
  data : List Byte
  after : List Nib

def FieldNibs.body (f : FieldNibs) : List Nib :=
  f.address.map .data ++ (f.epilogue.map .data ++ (f.gap ++
    (.data 0xD5 :: .data 0xAA :: .data 0xAD :: (f.data.map .data ++ f.after))))

def FieldNibs.nibs (f : FieldNibs) : List Nib :=
  .data 0xD5 :: .data 0xAA :: .data 0x96 :: f.body

/-- The field reads back as `addr` and `sector`. -/
structure FieldNibs.Encodes (f : FieldNibs) (addr : α) (sector : β) : Prop where
  addrLen : f.address.length = fmt.addrLen
  addrMsb : ∀ b ∈ f.address, b.msb = true
  addr : fmt.address f.address = some addr
  epilogueLen : f.epilogue.length = 3
  epilogueMsb : ∀ b ∈ f.epilogue, b.msb = true
  gapLen : f.gap.length ≤ 40
  gapQuiet : ∀ n ∈ f.gap, n.value.msb = true ∧ n.value ≠ 0xAD
  dataLen : f.data.length = fmt.dataLen
  dataMsb : ∀ b ∈ f.data, b.msb = true
  sector : fmt.data f.data = some sector
  afterQuiet : ∀ n ∈ f.after, n.value.msb = true ∧ n.value ≠ 0x96

theorem sync_quiet {b : Byte} (hb : b ≠ 0xFF) (k : Nat) :
    ∀ n ∈ List.replicate k Nib.sync, n.value.msb = true ∧ n.value ≠ b := by
  intro n hn
  rw [List.eq_of_mem_replicate hn]
  exact ⟨rfl, fun h => hb h.symm⟩

theorem value_msb_of_map {bytes : List Byte} (h : ∀ b ∈ bytes, b.msb = true) :
    ∀ n ∈ bytes.map Nib.data, n.value.msb = true := by
  intro n hn
  obtain ⟨b, hb, rfl⟩ := List.mem_map.mp hn
  exact h b hb

theorem map_value_data (bytes : List Byte) : (bytes.map Nib.data).map Nib.value = bytes := by
  simp [Function.comp_def, Nib.value]

theorem trailOf_le {z : Nat} (hz : z ≤ 2) (ns : List Nib) : trailOf z ns ≤ 2 := by
  induction ns generalizing z with
  | nil => exact hz
  | cons n ns ih => exact ih n.trail_le

theorem readNibbles_data {ms : List Nib} {tail : List Bool} {c : BitCursor} {z : Nat}
    (bytes : List Byte) (h : NibsAhead trk c z (bytes.map .data ++ ms) tail) (hz : z ≤ 2)
    (hmsb : ∀ b ∈ bytes, b.msb = true) :
    ∃ z' c', readNibbles trk bytes.length c = .ok (bytes, c') ∧ NibsAhead trk c' z' ms tail ∧
      z' ≤ 2 := by
  obtain ⟨c', hread, h'⟩ := h.readNibbles _ hz (value_msb_of_map hmsb)
  rw [List.length_map, map_value_data] at hread
  exact ⟨_, c', hread, h', trailOf_le hz _⟩

theorem huntData_found {gap ns : List Nib} {tail : List Bool} {c : BitCursor} {z : Nat}
    (h : NibsAhead trk c z (gap ++ (.data 0xD5 :: .data 0xAA :: .data 0xAD :: ns)) tail)
    (hz : z ≤ 2) (hlen : gap.length ≤ 40)
    (hgap : ∀ n ∈ gap, n.value.msb = true ∧ n.value ≠ 0xAD) :
    ∃ c', huntData trk (c.consumed + 64 * 8) (64 * 8 + 1) {} c = .ok (true, c') ∧
      NibsAhead trk c' 0 ns tail := by
  obtain ⟨fuel, hfuel⟩ : ∃ fuel, 64 * 8 + 1 = fuel + 3 + gap.length :=
    ⟨64 * 8 + 1 - 3 - gap.length, by omega⟩
  obtain ⟨d₁, c₁, hhunt, h₁, hc₁⟩ := @huntData_gap trk _ _ (c.consumed + 64 * 8) gap
    (fuel + 3) {} c z h hz hgap (by omega)
  obtain ⟨c₂, hpro, h₂⟩ := @huntData_prologue trk _ _ (c.consumed + 64 * 8) fuel d₁ c₁ _ h₁
    (trailOf_le hz gap) (by omega)
  exact ⟨c₂, by rw [hfuel, hhunt, hpro], h₂⟩

theorem readField_encodes {f : FieldNibs} {addr : α} {sector : β} (hf : f.Encodes fmt addr sector)
    {ms : List Nib} {tail : List Bool} {c : BitCursor}
    (h : NibsAhead trk c 0 (f.body ++ ms) tail) :
    ∃ z' c', readField fmt trk c = .ok (some (addr, sector), c') ∧
      NibsAhead trk c' z' (f.after ++ ms) tail ∧ z' ≤ 2 := by
  unfold FieldNibs.body at h
  simp only [List.append_assoc, List.cons_append] at h
  obtain ⟨z₁, c₁, hr₁, h₁, hz₁⟩ := readNibbles_data trk f.address h (by decide) hf.addrMsb
  obtain ⟨z₂, c₂, hr₂, h₂, hz₂⟩ := readNibbles_data trk f.epilogue h₁ hz₁ hf.epilogueMsb
  obtain ⟨c₃, hhunt, h₃⟩ := huntData_found trk h₂ hz₂ hf.gapLen hf.gapQuiet
  obtain ⟨z₄, c₄, hr₄, h₄, hz₄⟩ := readNibbles_data trk f.data h₃ (by decide) hf.dataMsb
  rw [hf.addrLen] at hr₁
  rw [hf.epilogueLen] at hr₂
  rw [hf.dataLen] at hr₄
  refine ⟨z₄, c₄, ?_, h₄, hz₄⟩
  unfold readField
  simp only [hr₁, ok_bind, hf.addr, hr₂, hhunt, if_true, hr₄, hf.sector]

def Passes : Window → List Nib → Prop
  | _, [] => True
  | w, n :: ns => w.push n.value ≠ addressPrologue ∧ Passes (w.push n.value) ns

theorem passes_quiet : ∀ (quiet : List Nib), (∀ n ∈ quiet, n.value ≠ 0x96) → ∀ w : Window, Passes w quiet := by
  intro quiet
  induction quiet with
  | nil => exact fun _ _ => trivial
  | cons n quiet ih =>
    intro hne w
    have hpush : w.push n.value ≠ addressPrologue := Window.push_ne (hne n List.mem_cons_self)
    exact ⟨hpush, ih (fun m hm => hne m (List.mem_cons_of_mem n hm)) (w.push n.value)⟩

theorem met_passes {ms : List Nib} {tail : List Bool} :
    ∀ (quiet : List Nib) {fuel : Nat} {w : Window} {c : BitCursor} {z : Nat},
      NibsAhead trk c z (quiet ++ ms) tail → z ≤ 2 →
      (∀ n ∈ quiet, n.value.msb = true) → Passes w quiet →
      ∃ w' z' c', met fmt trk (2 * trk.bitCount) (fuel + quiet.length) w c =
          met fmt trk (2 * trk.bitCount) fuel w' c' ∧
        NibsAhead trk c' z' ms tail ∧ z' ≤ 2 := by
  intro quiet
  induction quiet with
  | nil =>
    intro fuel w c z h hz _ _
    exact ⟨w, z, c, rfl, h, hz⟩
  | cons n quiet ih =>
    intro fuel w c z h hz hmsb hpass
    obtain ⟨c₁, hread, h₁, -⟩ := h.readNibble hz (hmsb n List.mem_cons_self)
    obtain ⟨w', z', c', hmet, h', hz'⟩ := @ih fuel (w.push n.value) c₁ n.trail h₁ n.trail_le
      (fun m hm => hmsb m (List.mem_cons_of_mem n hm)) hpass.2
    refine ⟨w', z', c', ?_, h', hz'⟩
    have hlt : c.consumed < 2 * trk.bitCount := NibsAhead.consumed_lt h
    rw [← hmet, List.length_cons, ← Nat.add_assoc, met, if_pos hlt, hread]
    exact if_neg hpass.1

theorem met_quiet {ms : List Nib} {tail : List Bool} (quiet : List Nib) {fuel : Nat} {w : Window} {c : BitCursor}
    {z : Nat} (h : NibsAhead trk c z (quiet ++ ms) tail) (hz : z ≤ 2)
    (hquiet : ∀ n ∈ quiet, n.value.msb = true ∧ n.value ≠ 0x96) :
    ∃ w' z' c', met fmt trk (2 * trk.bitCount) (fuel + quiet.length) w c =
        met fmt trk (2 * trk.bitCount) fuel w' c' ∧
      NibsAhead trk c' z' ms tail ∧ z' ≤ 2 :=
  met_passes fmt trk quiet h hz (fun n hn => (hquiet n hn).1) (passes_quiet quiet (fun n hn => (hquiet n hn).2) w)

theorem met_prologue {f : FieldNibs} {addr : α} {sector : β} (hf : f.Encodes fmt addr sector)
    {ms : List Nib} {tail : List Bool} {fuel : Nat} {w : Window} {c : BitCursor} {z : Nat}
    (h : NibsAhead trk c z (f.nibs ++ ms) tail) (hz : z ≤ 2) :
    ∃ z' c', met fmt trk (2 * trk.bitCount) (fuel + 3) w c =
        ((addr, sector) :: (met fmt trk (2 * trk.bitCount) fuel {} c').1,
          (met fmt trk (2 * trk.bitCount) fuel {} c').2) ∧
      NibsAhead trk c' z' (f.after ++ ms) tail ∧ z' ≤ 2 := by
  have hlt := NibsAhead.consumed_lt h
  obtain ⟨c₁, hr₁, h₁, -⟩ := h.readNibble hz (by decide)
  have hlt₁ := NibsAhead.consumed_lt h₁
  obtain ⟨c₂, hr₂, h₂, -⟩ := h₁.readNibble (by decide) (by decide)
  have hlt₂ := NibsAhead.consumed_lt h₂
  obtain ⟨c₃, hr₃, h₃, -⟩ := h₂.readNibble (by decide) (by decide)
  obtain ⟨z₄, c₄, hfield, h₄, hz₄⟩ := readField_encodes fmt trk hf h₃
  refine ⟨z₄, c₄, ?_, h₄, hz₄⟩
  have hw₁ : w.push 0xD5 ≠ addressPrologue := Window.push_ne (by decide)
  have hw₂ : (w.push 0xD5).push 0xAA ≠ addressPrologue := Window.push_ne (by decide)
  have hw₃ : ((w.push 0xD5).push 0xAA).push 0x96 = addressPrologue := rfl
  simp only [met, if_pos hlt, hr₁, Nib.value, if_neg hw₁, if_pos hlt₁, hr₂, if_neg hw₂,
    if_pos hlt₂, hr₃, if_pos hw₃, hfield]

theorem met_field {f : FieldNibs} {addr : α} {sector : β} (hf : f.Encodes fmt addr sector)
    {ms : List Nib} {tail : List Bool} {fuel : Nat} {w : Window} {c : BitCursor} {z : Nat}
    (h : NibsAhead trk c z (f.nibs ++ ms) tail) (hz : z ≤ 2) (hfuel : f.nibs.length ≤ fuel) :
    ∃ fuel' w' z' c', fuel ≤ fuel' + f.nibs.length ∧
      met fmt trk (2 * trk.bitCount) fuel w c =
        ((addr, sector) :: (met fmt trk (2 * trk.bitCount) fuel' w' c').1,
          (met fmt trk (2 * trk.bitCount) fuel' w' c').2) ∧
      NibsAhead trk c' z' ms tail ∧ z' ≤ 2 := by
  have hnibs : f.after.length + 3 ≤ f.nibs.length := by
    simp only [FieldNibs.nibs, FieldNibs.body, List.length_cons, List.length_append]
    omega
  obtain ⟨rest, rfl⟩ : ∃ rest, fuel = rest + f.after.length + 3 :=
    ⟨fuel - f.after.length - 3, by omega⟩
  obtain ⟨z₁, c₁, hmet₁, h₁, hz₁⟩ :=
    @met_prologue α β fmt trk f addr sector hf ms tail (rest + f.after.length) w c z h hz
  obtain ⟨w₂, z₂, c₂, hmet₂, h₂, hz₂⟩ :=
    @met_quiet α β fmt trk ms tail f.after rest {} c₁ z₁ h₁ hz₁ hf.afterQuiet
  rw [hmet₂] at hmet₁
  exact ⟨rest, w₂, z₂, c₂, by omega, hmet₁, h₂, hz₂⟩

theorem met_fields {ι : Type} (field : ι → FieldNibs) (addr : ι → α) (sector : ι → β)
    {ms : List Nib} {tail : List Bool} :
    ∀ (is : List ι) {fuel : Nat} {w : Window} {c : BitCursor} {z : Nat},
      (∀ i ∈ is, (field i).Encodes fmt (addr i) (sector i)) →
      NibsAhead trk c z (is.flatMap (fun i => (field i).nibs) ++ ms) tail → z ≤ 2 →
      (is.flatMap fun i => (field i).nibs).length ≤ fuel →
      ∃ more fin, met fmt trk (2 * trk.bitCount) fuel w c =
        (is.map (fun i => (addr i, sector i)) ++ more, fin) := by
  intro is
  induction is with
  | nil =>
    intro fuel w c z _ _ _ _
    exact ⟨_, _, rfl⟩
  | cons i is ih =>
    intro fuel w c z hf h hz hfuel
    rw [List.flatMap_cons, List.append_assoc] at h
    rw [List.flatMap_cons, List.length_append] at hfuel
    obtain ⟨fuel', w', z', c', hle, hmet, h', hz'⟩ :=
      met_field fmt trk (hf i List.mem_cons_self) h hz
        (Nat.le_trans (Nat.le_add_right _ _) hfuel)
    obtain ⟨more, fin, hrest⟩ := @ih fuel' w' c' z'
      (fun j hj => hf j (List.mem_cons_of_mem i hj)) h' hz' (by omega)
    exact ⟨more, fin, by rw [hmet, hrest]; rfl⟩

end

theorem length_le_nibCells (ns : List Nib) : 8 * ns.length ≤ (nibCells ns).length := by
  induction ns with
  | nil => exact Nat.le_refl 0
  | cons n ns ih =>
    rw [nibCells_cons, Nib.cells_eq]
    simp only [List.length_cons, List.length_append, msbFirst_length, List.length_replicate]
    omega

theorem met_track {α β ι : Type} (fmt : Format α β) (field : ι → FieldNibs) (addr : ι → α)
    (sector : ι → β) (is : List ι) (hf : ∀ i ∈ is, (field i).Encodes fmt (addr i) (sector i))
    {gap : List Nib} (hgap : ∀ n ∈ gap, n.value.msb = true ∧ n.value ≠ 0x96)
    {trk : Track} (hh : Holds trk (nibCells (gap ++ is.flatMap fun i => (field i).nibs)))
    (hlen : 2 * (nibCells (gap ++ is.flatMap fun i => (field i).nibs)).length < 2 ^ 32) :
    ∃ more fin, met fmt trk (2 * trk.bitCount) (2 * trk.bitCount + 1) {} .start =
      (is.map (fun i => (addr i, sector i)) ++ more, fin) := by
  obtain ⟨ns, hns⟩ : ∃ ns, ns = is.flatMap fun i => (field i).nibs := ⟨_, rfl⟩
  rw [← hns] at hh hlen
  have hnibs := length_le_nibCells (gap ++ ns)
  rw [List.length_append] at hnibs
  have hcount := hh.count
  have hahead : NibsAhead trk .start 0 (gap ++ ns) (nibCells (gap ++ ns)) := ahead_start hh hlen
  obtain ⟨fuel, hfuel⟩ : ∃ fuel, 2 * trk.bitCount + 1 = fuel + gap.length :=
    ⟨2 * trk.bitCount + 1 - gap.length, by omega⟩
  obtain ⟨w', z', c', hmet, h', hz'⟩ :=
    @met_quiet α β fmt trk ns _ gap fuel {} .start 0 hahead (by decide) hgap
  rw [hns, ← List.append_nil (List.flatMap _ is)] at h'
  rw [hfuel, hmet]
  exact met_fields fmt trk field addr sector is hf h' hz' (by rw [← hns]; omega)

end GSSquared.Woz
