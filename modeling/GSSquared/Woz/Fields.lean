/-
What the fields of a scan are, on an arbitrary track.
-/
import GSSquared.Woz.Scan
import GSSquared.Woz.Feed

set_option linter.all false

namespace GSSquared.Woz

open Bits

def OnScan (trk : Track) (c : BitCursor) : Prop := ∃ front, Feeds trk .start front c

/-- The nibbles `ns` lie between `c` and `c'`. -/
def Reads (trk : Track) (c : BitCursor) (ns : List Byte) (c' : BitCursor) : Prop :=
  readNibbles trk ns.length c = .ok (ns, c')

theorem OnScan.start (trk : Track) : OnScan trk .start := ⟨[], rfl⟩

theorem OnScan.readNibble {trk : Track} {c c' : BitCursor} {b : Byte} (h : OnScan trk c)
    (hread : readNibble trk c = .ok (b, c')) : OnScan trk c' := by
  obtain ⟨front, hfront⟩ := h
  obtain ⟨bs, hfeed, -, -⟩ := (readNibbleLoop_ok _ _ _).mp hread
  exact ⟨front ++ bs, hfront.append hfeed⟩

theorem reads_nil (trk : Track) (c : BitCursor) : Reads trk c [] c := rfl

variable {trk : Track}

theorem reads_cons {c c₁ c' : BitCursor} {b : Byte} {ns : List Byte}
    (hread : readNibble trk c = .ok (b, c₁)) (h : Reads trk c₁ ns c') :
    Reads trk c (b :: ns) c' := by
  unfold Reads at h ⊢
  simp only [List.length_cons, readNibbles, hread, ok_bind, h]

theorem reads_cons_inv {c c' : BitCursor} {b : Byte} {ns : List Byte}
    (h : Reads trk c (b :: ns) c') :
    ∃ c₁, readNibble trk c = .ok (b, c₁) ∧ Reads trk c₁ ns c' := by
  unfold Reads at h
  rw [List.length_cons, readNibbles, bind_eq_ok] at h
  obtain ⟨⟨b', c₁⟩, hread, h⟩ := h
  rw [bind_eq_ok] at h
  obtain ⟨⟨ns', c₂⟩, hrest, h⟩ := h
  cases h
  exact ⟨c₁, hread, hrest⟩

theorem Reads.append {ns ms : List Byte} {c c₁ c' : BitCursor}
    (h : Reads trk c ns c₁) (h' : Reads trk c₁ ms c') : Reads trk c (ns ++ ms) c' := by
  induction ns generalizing c with
  | nil =>
    cases h
    exact h'
  | cons b ns ih =>
    obtain ⟨c₂, hread, hrest⟩ := reads_cons_inv h
    exact reads_cons hread (ih hrest)

theorem Reads.snoc {ns : List Byte} {c c₁ c' : BitCursor} {b : Byte}
    (h : Reads trk c ns c₁) (hread : readNibble trk c₁ = .ok (b, c')) :
    Reads trk c (ns ++ [b]) c' :=
  h.append (reads_cons hread (reads_nil trk c'))

theorem reads_of_readNibbles {n : Nat} {c c' : BitCursor} {ns : List Byte}
    (h : readNibbles trk n c = .ok (ns, c')) : ns.length = n ∧ Reads trk c ns c' := by
  induction n generalizing c ns with
  | zero =>
    cases h
    exact ⟨rfl, rfl⟩
  | succ n ih =>
    rw [readNibbles, bind_eq_ok] at h
    obtain ⟨⟨b, c₁⟩, hread, h⟩ := h
    rw [bind_eq_ok] at h
    obtain ⟨⟨rest, c₂⟩, hrest, h⟩ := h
    cases h
    obtain ⟨hlen, hreads⟩ := ih hrest
    exact ⟨by rw [List.length_cons, hlen], reads_cons hread hreads⟩

theorem Reads.onScan {ns : List Byte} {c c' : BitCursor} (h : Reads trk c ns c')
    (hc : OnScan trk c) : OnScan trk c' := by
  induction ns generalizing c with
  | nil => cases h; exact hc
  | cons b ns ih =>
    obtain ⟨c₂, hread, hrest⟩ := reads_cons_inv h
    exact ih hrest (hc.readNibble hread)

/-- A field of the track: both prologues, with an address and data behind them that
pass their checks.  What lies between the address and the data prologue is not
looked at. -/
structure FieldOn {α β : Type} (fmt : Format α β) (trk : Track) (addr : α) (sector : β) : Prop where
  cells : ∃ c₀ c₁ e c₂ skipped c₃ ns c₄, OnScan trk c₀ ∧
    Reads trk c₀ [0xD5, 0xAA, 0x96] c₁ ∧ Reads trk c₁ e c₂ ∧ e.length = fmt.addrLen ∧
    fmt.address e = some addr ∧ Reads trk c₂ (skipped ++ [0xD5, 0xAA, 0xAD]) c₃ ∧
    Reads trk c₃ ns c₄ ∧ ns.length = fmt.dataLen ∧ fmt.data ns = some sector

/-- The window holds the last nibbles read since `c₀`, and `c` is behind them. -/
def Window.Since (trk : Track) (c₀ : BitCursor) (w : Window) (c : BitCursor) : Prop :=
  ∃ ns, w = ns.foldl Window.push {} ∧ Reads trk c₀ ns c

theorem Window.Since.empty (trk : Track) (c : BitCursor) : Window.Since trk c {} c :=
  ⟨[], rfl, reads_nil trk c⟩

theorem Window.Since.push {trk : Track} {c₀ c c' : BitCursor} {w : Window} {b : Byte}
    (h : w.Since trk c₀ c) (hread : readNibble trk c = .ok (b, c')) :
    (w.push b).Since trk c₀ c' := by
  obtain ⟨ns, rfl, hreads⟩ := h
  exact ⟨ns ++ [b], by rw [List.foldl_append, List.foldl_cons, List.foldl_nil], hreads.snoc hread⟩

theorem window_full {ns : List Byte} {n2 n1 n0 : Byte} (h2 : n2 ≠ 0)
    (h : ns.foldl Window.push {} = { n2 := n2, n1 := n1, n0 := n0 }) :
    ∃ before, ns = before ++ [n2, n1, n0] := by
  rcases List.eq_nil_or_concat ns with rfl | ⟨ns, x, rfl⟩
  · cases h; exact absurd rfl h2
  rw [List.concat_eq_append, List.foldl_append] at h
  rcases List.eq_nil_or_concat ns with rfl | ⟨ns, y, rfl⟩
  · cases h; exact absurd rfl h2
  rw [List.concat_eq_append, List.foldl_append] at h
  rcases List.eq_nil_or_concat ns with rfl | ⟨ns, z, rfl⟩
  · cases h; exact absurd rfl h2
  rw [List.concat_eq_append, List.foldl_append] at h
  cases h
  exact ⟨ns, by simp [Window.push]⟩

theorem Window.Since.prologue {trk : Track} {c₀ c : BitCursor} {n2 n1 n0 : Byte}
    (h : Window.Since trk c₀ { n2 := n2, n1 := n1, n0 := n0 } c) (h2 : n2 ≠ 0) :
    ∃ before, Reads trk c₀ (before ++ [n2, n1, n0]) c := by
  obtain ⟨ns, hns, hreads⟩ := h
  obtain ⟨before, rfl⟩ := window_full h2 hns.symm
  exact ⟨before, hreads⟩

theorem Reads.split {trk : Track} {ns ms : List Byte} {c c' : BitCursor}
    (h : Reads trk c (ns ++ ms) c') : ∃ c₁, Reads trk c ns c₁ ∧ Reads trk c₁ ms c' := by
  induction ns generalizing c with
  | nil => exact ⟨c, rfl, h⟩
  | cons b ns ih =>
    obtain ⟨c₁, hread, hrest⟩ := reads_cons_inv h
    obtain ⟨c₂, h₁, h₂⟩ := ih hrest
    exact ⟨c₂, reads_cons hread h₁, h₂⟩

theorem huntData_reads {trk : Track} {limit : Nat} {c₀ c' : BitCursor} :
    ∀ (fuel : Nat) (d : Window) (c : BitCursor), d.Since trk c₀ c →
      huntData trk limit fuel d c = .ok (true, c') →
      ∃ skipped, Reads trk c₀ (skipped ++ [0xD5, 0xAA, 0xAD]) c' := by
  intro fuel
  induction fuel with
  | zero => intro d c _ h; cases h
  | succ fuel ih =>
    intro d c hd h
    rw [huntData] at h
    split at h
    · rw [bind_eq_ok] at h
      obtain ⟨⟨b, c₁⟩, hread, h⟩ := h
      have hnext := hd.push hread
      simp only at h
      split at h
      · rename_i hpush
        cases h
        rw [hpush] at hnext
        exact hnext.prologue (by decide)
      · exact ih _ c₁ hnext h
    · cases h

theorem readField_fieldOn {α β : Type} {fmt : Format α β} {trk : Track} {c₀ c₁ c' : BitCursor}
    {addr : α} {sector : β} (hc₀ : OnScan trk c₀) (hpro : Reads trk c₀ [0xD5, 0xAA, 0x96] c₁)
    (h : readField fmt trk c₁ = .ok (some (addr, sector), c')) : FieldOn fmt trk addr sector := by
  unfold readField at h
  rw [bind_eq_ok] at h
  obtain ⟨⟨e, c₂⟩, he, h⟩ := h
  obtain ⟨helen, hereads⟩ := reads_of_readNibbles he
  simp only at h
  split at h
  · cases h
  rename_i addr' haddr
  rw [bind_eq_ok] at h
  obtain ⟨⟨epilogue, c₃⟩, hep, h⟩ := h
  obtain ⟨-, hepreads⟩ := reads_of_readNibbles hep
  rw [bind_eq_ok] at h
  obtain ⟨⟨got, c₄⟩, hhunt, h⟩ := h
  cases got with
  | false => cases h
  | true =>
    obtain ⟨skipped, hskipped⟩ := huntData_reads _ _ _ (Window.Since.empty trk c₃) hhunt
    simp only [if_true] at h
    rw [bind_eq_ok] at h
    obtain ⟨⟨ns, c₅⟩, hns, h⟩ := h
    obtain ⟨hnslen, hnsreads⟩ := reads_of_readNibbles hns
    simp only at h
    split at h
    · cases h
    rename_i sector' hsector
    cases h
    have hbetween := hepreads.append hskipped
    rw [← List.append_assoc] at hbetween
    exact ⟨c₀, c₁, e, c₂, epilogue ++ skipped, c₄, ns, c', hc₀, hpro, hereads, helen, haddr,
      hbetween, hnsreads, hnslen, hsector⟩

theorem Reads.consumed_le {trk : Track} {ns : List Byte} {c c' : BitCursor}
    (h : Reads trk c ns c') : c.consumed ≤ c'.consumed := by
  induction ns generalizing c with
  | nil => cases h; exact Nat.le_refl _
  | cons b ns ih =>
    obtain ⟨c₁, hread, hrest⟩ := reads_cons_inv h
    obtain ⟨bs, hfeed, -, -⟩ := (readNibbleLoop_ok _ _ _).mp hread
    have hcons := hfeed.consumed
    have hle := ih hrest
    omega

theorem readNibble_consumed {trk : Track} {c c' : BitCursor} {b : Byte}
    (h : readNibble trk c = .ok (b, c')) : c.consumed < c'.consumed := by
  obtain ⟨bs, hfeed, hl, -⟩ := (readNibbleLoop_ok _ _ _).mp h
  have hcons := hfeed.consumed
  cases bs with
  | nil => cases hl
  | cons bit bs =>
    rw [List.length_cons] at hcons
    omega

theorem huntData_ahead {trk : Track} {limit : Nat} {got : Bool} {c' : BitCursor} :
    ∀ (fuel : Nat) (d : Window) (c : BitCursor),
      huntData trk limit fuel d c = .ok (got, c') → ∃ ns, Reads trk c ns c' := by
  intro fuel
  induction fuel with
  | zero => intro d c h; cases h
  | succ fuel ih =>
    intro d c h
    rw [huntData] at h
    split at h
    · rw [bind_eq_ok] at h
      obtain ⟨⟨b, c₁⟩, hread, h⟩ := h
      simp only at h
      split at h
      · cases h
        exact ⟨[b], reads_cons hread (reads_nil trk c')⟩
      · obtain ⟨ns, hns⟩ := ih _ c₁ h
        exact ⟨b :: ns, reads_cons hread hns⟩
    · cases h
      exact ⟨[], rfl⟩

theorem readField_ahead {α β : Type} {fmt : Format α β} {trk : Track} {c c' : BitCursor}
    {field : Option (α × β)} (h : readField fmt trk c = .ok (field, c')) :
    ∃ ns, Reads trk c ns c' := by
  unfold readField at h
  rw [bind_eq_ok] at h
  obtain ⟨⟨e, c₂⟩, he, h⟩ := h
  obtain ⟨-, hereads⟩ := reads_of_readNibbles he
  simp only at h
  split at h
  · cases h
    exact ⟨e, hereads⟩
  rw [bind_eq_ok] at h
  obtain ⟨⟨epilogue, c₃⟩, hep, h⟩ := h
  obtain ⟨-, hepreads⟩ := reads_of_readNibbles hep
  rw [bind_eq_ok] at h
  obtain ⟨⟨got, c₄⟩, hhunt, h⟩ := h
  obtain ⟨skipped, hskipped⟩ := huntData_ahead _ _ _ hhunt
  have hfront := hereads.append (hepreads.append hskipped)
  cases got with
  | false =>
    cases h
    exact ⟨_, hfront⟩
  | true =>
    simp only [if_true] at h
    rw [bind_eq_ok] at h
    obtain ⟨⟨ns, c₅⟩, hns, h⟩ := h
    obtain ⟨-, hnsreads⟩ := reads_of_readNibbles hns
    simp only at h
    split at h
    · cases h
      exact ⟨_, hfront.append hnsreads⟩
    · cases h
      exact ⟨_, hfront.append hnsreads⟩

section

variable {α β σ : Type} (fmt : Format α β) (trk : Track)

theorem met_fieldOn_from {maxBits : Nat} :
    ∀ (fuel : Nat) (w : Window) (c c₀ : BitCursor), OnScan trk c₀ → w.Since trk c₀ c →
      ∀ field ∈ (met fmt trk maxBits fuel w c).1, FieldOn fmt trk field.1 field.2 := by
  intro fuel
  induction fuel with
  | zero => intro w c c₀ _ _ field hmem; cases hmem
  | succ fuel ih =>
    intro w c c₀ hc₀ hw field hmem
    rw [met] at hmem
    split at hmem
    · cases hread : readNibble trk c with
      | error e =>
        simp only [hread] at hmem
        cases hmem
      | ok r =>
        obtain ⟨b, c₁⟩ := r
        have hnext := hw.push hread
        simp only [hread] at hmem
        split at hmem
        · rename_i hpush
          rw [hpush] at hnext
          obtain ⟨before, hreads⟩ := hnext.prologue (by decide)
          obtain ⟨c₂, hbefore, hpro⟩ := hreads.split
          have hc₂ := hbefore.onScan hc₀
          cases hfield : readField fmt trk c₁ with
          | error e =>
            simp only [hfield] at hmem
            cases hmem
          | ok r =>
            obtain ⟨found, c₃⟩ := r
            obtain ⟨ns, hns⟩ := readField_ahead hfield
            have hc₃ := hns.onScan (hpro.onScan hc₂)
            have hrest := ih {} c₃ c₃ hc₃ (Window.Since.empty trk c₃)
            cases found with
            | none =>
              simp only [hfield] at hmem
              exact hrest field hmem
            | some found =>
              simp only [hfield] at hmem
              rcases List.mem_cons.mp hmem with rfl | hmem
              · exact readField_fieldOn hc₂ hpro hfield
              · exact hrest field hmem
        · exact ih _ c₁ c₀ hc₀ hnext field hmem
    · cases hmem

theorem met_fieldOn (maxBits fuel : Nat) {addr : α} {sector : β}
    (h : (addr, sector) ∈ (met fmt trk maxBits fuel {} .start).1) : FieldOn fmt trk addr sector :=
  met_fieldOn_from fmt trk fuel {} .start .start (OnScan.start trk) (Window.Since.empty trk _) _ h

end

/-! ## Tracks without a one

On a track with room for its cells a nibble read returns unless the track is dark; a
dark track holds the scan up before it meets anything. -/

def Dark (trk : Track) : Prop :=
  ∀ (c c' : BitCursor) (bit : Bool), c.pos < 2 ^ 32 → readBit trk c = .ok (bit, c') → bit = false

section

variable {trk : Track} (hfits : trk.bitCount ≤ 8 * trk.bits.length) (hpos : 0 < trk.bitCount)

include hfits hpos

theorem readBit_total (c : BitCursor) : ∃ bit c', readBit trk c = .ok (bit, c') := by
  have hlt := Nat.mod_lt c.pos hpos
  have hidx : c.pos % trk.bitCount / 8 < trk.bits.length := by omega
  simp only [readBit, List.getElem?_eq_getElem hidx]
  exact ⟨_, _, rfl⟩

theorem feeds_total (n : Nat) (c : BitCursor) :
    ∃ bs c', bs.length = n ∧ Feeds trk c bs c' := by
  induction n generalizing c with
  | zero => exact ⟨[], c, rfl, rfl⟩
  | succ n ih =>
    obtain ⟨bit, c₁, hread⟩ := readBit_total hfits hpos c
    obtain ⟨bs, c', hlen, hfeed⟩ := ih c₁
    exact ⟨bit :: bs, c', by rw [List.length_cons, hlen], c₁, hread, hfeed⟩

theorem readNibbleLoop_error {e : Fault} (fuel : Nat) (r : Byte) (c : BitCursor)
    (h : readNibbleLoop trk fuel r c = .error e) : e = .endless := by
  induction fuel generalizing r c with
  | zero => cases h; rfl
  | succ fuel ih =>
    obtain ⟨bit, c₁, hread⟩ := readBit_total hfits hpos c
    rw [readNibbleLoop, hread, ok_bind] at h
    simp only at h
    split at h
    · cases h
    · exact ih _ c₁ h

theorem readNibble_or_dark {c : BitCursor} (hc : c.pos < 2 ^ 32) :
    (∃ b c', readNibble trk c = .ok (b, c')) ∨ (readNibble trk c = .error .endless ∧ Dark trk) := by
  cases hread : readNibble trk c with
  | ok r => exact .inl ⟨r.1, r.2, rfl⟩
  | error e =>
    refine .inr ⟨by rw [readNibbleLoop_error hfits hpos _ _ _ hread], ?_⟩
    obtain ⟨bs, c', hlen, hfeed⟩ := feeds_total hfits hpos nibbleFuel c
    have hnone : latch 0 bs = none := by
      cases hl : latch 0 bs with
      | none => rfl
      | some res =>
        obtain ⟨b, rest⟩ := res
        obtain ⟨front, rfl, hfront⟩ := latch_front hl
        obtain ⟨c₁, hf₁, -⟩ := hfeed.split
        rw [(readNibble_ok hc).mpr ⟨front, hf₁, hfront⟩] at hread
        cases hread
    intro d d' bit hd hbit
    -- the cursor comes to the position of `d` within `2 ^ 32` cells
    obtain ⟨k, hk, hsame⟩ : ∃ k, k < 2 ^ 32 ∧ (c.pos + k) % 2 ^ 32 = d.pos :=
      ⟨(d.pos + 2 ^ 32 - c.pos) % 2 ^ 32, Nat.mod_lt _ (by decide), by omega⟩
    have hzero := latch_none_zeros hnone k (by rw [hlen]; unfold nibbleFuel; omega)
    have hklt : k < bs.length := by rw [hlen]; unfold nibbleFuel; omega
    have hsplit : bs = bs.take k ++ (false :: bs.drop (k + 1)) := by
      rw [List.getElem?_eq_getElem hklt] at hzero
      rw [← Option.some.inj hzero, ← List.drop_eq_getElem_cons hklt, List.take_append_drop]
    rw [hsplit] at hfeed
    obtain ⟨c₁, hf₁, c₂, hread₁, -⟩ := hfeed.split
    have hpos₁ : c₁.pos = d.pos := by
      rw [hf₁.pos hc, List.length_take, Nat.min_eq_left (by omega), hsame]
    obtain ⟨d'', hbit'⟩ := readBit_congr hpos₁ hread₁
    rw [hbit'] at hbit
    cases hbit
    rfl

theorem Dark.readNibble (hdark : Dark trk) {c : BitCursor} (hc : c.pos < 2 ^ 32) :
    Woz.readNibble trk c = .error .endless := by
  rcases readNibble_or_dark hfits hpos hc with ⟨b, c', hread⟩ | h
  · exfalso
    obtain ⟨bs, hfeed, hl⟩ := (readNibble_ok hc).mp hread
    obtain ⟨k, tl, rfl, -⟩ := latch_zero_cells hl
    obtain ⟨c₁, hf₁, c₂, hread₁, -⟩ := hfeed.split
    have hlt : c₁.pos < 2 ^ 32 := by
      rw [hf₁.pos hc]
      exact Nat.mod_lt _ (by decide)
    cases hdark c₁ c₂ true hlt hread₁
  · exact h.1

theorem readNibbles_total (hbright : ¬ Dark trk) (n : Nat) {c : BitCursor} (hc : c.pos < 2 ^ 32) :
    ∃ ns c', readNibbles trk n c = .ok (ns, c') ∧ c'.pos < 2 ^ 32 := by
  induction n generalizing c with
  | zero => exact ⟨[], c, rfl, hc⟩
  | succ n ih =>
    rcases readNibble_or_dark hfits hpos hc with ⟨b, c₁, hread⟩ | ⟨-, hdark⟩
    · obtain ⟨bs, hfeed, -⟩ := (readNibble_ok hc).mp hread
      have hc₁ : c₁.pos < 2 ^ 32 := by
        rw [hfeed.pos hc]
        exact Nat.mod_lt _ (by decide)
      obtain ⟨ns, c', hrest, hc'⟩ := ih hc₁
      exact ⟨b :: ns, c', by simp only [readNibbles, hread, hrest, ok_bind], hc'⟩
    · exact absurd hdark hbright

theorem readNibble_total (hbright : ¬ Dark trk) {c : BitCursor} (hc : c.pos < 2 ^ 32) :
    ∃ b c', Woz.readNibble trk c = .ok (b, c') ∧ c'.pos < 2 ^ 32 := by
  rcases readNibble_or_dark hfits hpos hc with ⟨b, c', hread⟩ | ⟨-, hdark⟩
  · obtain ⟨bs, hfeed, -⟩ := (readNibble_ok hc).mp hread
    refine ⟨b, c', hread, ?_⟩
    rw [hfeed.pos hc]
    exact Nat.mod_lt _ (by decide)
  · exact absurd hdark hbright

theorem huntData_total (hbright : ¬ Dark trk) {limit : Nat} :
    ∀ (fuel : Nat) (d : Window) (c : BitCursor), c.pos < 2 ^ 32 → 0 < fuel →
      limit < c.consumed + fuel →
      ∃ got c', huntData trk limit fuel d c = .ok (got, c') ∧ c'.pos < 2 ^ 32 := by
  intro fuel
  induction fuel with
  | zero => intro d c _ h; omega
  | succ fuel ih =>
    intro d c hc _ hlimit
    rw [huntData]
    split
    · obtain ⟨b, c₁, hread, hc₁⟩ := readNibble_total hfits hpos hbright hc
      have hcons := readNibble_consumed hread
      rw [hread, ok_bind]
      simp only
      split
      · exact ⟨true, c₁, rfl, hc₁⟩
      · exact ih _ c₁ hc₁ (by omega) (by omega)
    · exact ⟨false, c, rfl, hc⟩

theorem readField_total {α β : Type} (fmt : Format α β) (hbright : ¬ Dark trk) {c : BitCursor}
    (hc : c.pos < 2 ^ 32) :
    ∃ field c', readField fmt trk c = .ok (field, c') ∧ c'.pos < 2 ^ 32 := by
  obtain ⟨e, c₁, he, hc₁⟩ := readNibbles_total hfits hpos hbright fmt.addrLen hc
  unfold readField
  rw [he, ok_bind]
  simp only
  split
  · exact ⟨none, c₁, rfl, hc₁⟩
  · obtain ⟨ep, c₂, hep, hc₂⟩ := readNibbles_total hfits hpos hbright 3 hc₁
    obtain ⟨got, c₃, hhunt, hc₃⟩ := @huntData_total trk hfits hpos hbright
      (c₂.consumed + 64 * 8) (64 * 8 + 1) {} c₂ hc₂ (by omega) (by omega)
    rw [hep, ok_bind]
    simp only [hhunt, ok_bind]
    cases got with
    | false => exact ⟨none, c₃, rfl, hc₃⟩
    | true =>
      obtain ⟨ns, c₄, hns, hc₄⟩ := readNibbles_total hfits hpos hbright fmt.dataLen hc₃
      simp only [if_true, hns, ok_bind]
      split
      · exact ⟨none, c₄, rfl, hc₄⟩
      · exact ⟨_, c₄, rfl, hc₄⟩

theorem met_total {α β : Type} (fmt : Format α β) (hbright : ¬ Dark trk) {maxBits : Nat} :
    ∀ (fuel : Nat) (w : Window) (c : BitCursor), c.pos < 2 ^ 32 → 0 < fuel →
      maxBits < c.consumed + fuel → (met fmt trk maxBits fuel w c).2 = none := by
  intro fuel
  induction fuel with
  | zero => intro w c _ h; omega
  | succ fuel ih =>
    intro w c hc _ hmax
    rw [met]
    split
    · obtain ⟨b, c₁, hread, hc₁⟩ := readNibble_total hfits hpos hbright hc
      have hcons := readNibble_consumed hread
      simp only [hread]
      split
      · obtain ⟨field, c₂, hfield, hc₂⟩ := readField_total hfits hpos fmt hbright hc₁
        obtain ⟨ns, hns⟩ := readField_ahead hfield
        have hle := hns.consumed_le
        have hrest := ih {} c₂ hc₂ (by omega) (by omega)
        simp only [hfield]
        cases field with
        | none => exact hrest
        | some field => exact hrest
      · exact ih _ c₁ hc₁ (by omega) (by omega)
    · rfl

theorem met_dark_or_ends {α β : Type} (fmt : Format α β) :
    met fmt trk (2 * trk.bitCount) (2 * trk.bitCount + 1) {} .start = ([], some .endless) ∨
      (met fmt trk (2 * trk.bitCount) (2 * trk.bitCount + 1) {} .start).2 = none := by
  by_cases hdark : Dark trk
  · refine .inl ?_
    have hstart : BitCursor.start.consumed < 2 * trk.bitCount := by
      show 0 < _
      omega
    rw [met, if_pos hstart, hdark.readNibble hfits hpos (by decide)]
  · exact .inr (met_total hfits hpos fmt hdark _ _ _ (by decide) (by omega) (by
      show _ < 0 + _
      omega))

end

end GSSquared.Woz
